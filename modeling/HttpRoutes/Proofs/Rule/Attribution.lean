import HttpRoutes.Proofs.Router.Conflict
import HttpRoutes.Proofs.Router.Methods
import HttpRoutes.Proofs.Rule.Table

/-!
# From documents to answers

A document is read here as a plain list of its bindings, each rule before its
additional bindings, where every binding stands with the rule that it takes its
selector from.  A binding whose template can be read asks for a route.

A table that is built from a document answers with the first binding of its
class.  The others are refused or dropped, but the first one takes the same
requests for them, so what they are for is still found.
-/

namespace HttpRoutes

/-- A rule or one of its additional bindings. -/
structure DocumentBinding where
  rule : HttpRule
  binding : HttpRule

def HttpRule.bindings (rule : HttpRule) : List DocumentBinding :=
  ⟨rule, rule⟩ :: rule.additionalBindings.map fun binding => ⟨rule, binding⟩

/-- The bindings of all rules, in document order. -/
def RuleSet.bindings (rules : RuleSet) : List DocumentBinding :=
  rules.rules.flatMap HttpRule.bindings

/-- The route that a binding asks for, if its template can be read. -/
def DocumentBinding.route? (entry : DocumentBinding) : Option (Route String) :=
  match entry.binding.pattern with
  | .error _ => none
  | .ok (method, text) =>
    match Template.parse text with
    | .error _ => none
    | .ok parsed => some ⟨method, parsed, entry.rule.selector⟩

def DocumentBinding.spec (entry : DocumentBinding) : Except RuleError RouteSpec :=
  entry.binding.spec entry.rule.selector

/-! ## Reading a document -/

theorem except_bind_eq_ok {ε β γ : Type} {first : Except ε β}
    {next : β → Except ε γ} {result : γ} (hbind : (first >>= next) = .ok result) :
    ∃ value, first = .ok value ∧ next value = .ok result := by
  cases first with
  | error error => contradiction
  | ok value => exact ⟨value, rfl, hbind⟩

namespace HttpRule

theorem eq_singleton_of_single {rule : HttpRule}
    {patterns : List (String × String)} {found : String × String}
    (hsingle : pattern.single rule patterns = .ok found) : patterns = [found] := by
  cases patterns with
  | nil => contradiction
  | cons first patterns =>
      cases patterns with
      | nil => rw [Except.ok.inj hsingle]
      | cons second patterns => contradiction

theorem isMethodToken_of_mem_commonPatterns {rule : HttpRule}
    {method text : String} (hmem : (method, text) ∈ rule.commonPatterns) :
    isMethodToken method = true := by
  obtain ⟨⟨common, field⟩, hfield, hmap⟩ := List.mem_filterMap.mp hmem
  obtain ⟨_, _, hpair⟩ := Option.map_eq_some_iff.mp hmap
  have hmethod : common = method := congrArg Prod.fst hpair
  have hnames : common ∈ ["GET", "PUT", "POST", "DELETE", "PATCH"] :=
    List.mem_map_of_mem (f := Prod.fst) hfield
  have htokens : ∀ name ∈ ["GET", "PUT", "POST", "DELETE", "PATCH"],
      isMethodToken name = true := by
    decide
  exact hmethod ▸ htokens common hnames

theorem isMethodToken_of_pattern {rule : HttpRule} {method text : String}
    (hpattern : rule.pattern = .ok (method, text)) :
    isMethodToken method = true := by
  unfold pattern at hpattern
  split at hpattern
  next =>
    have hcommon := eq_singleton_of_single hpattern
    have hmem : (method, text) ∈ rule.commonPatterns := by simp [hcommon]
    exact isMethodToken_of_mem_commonPatterns hmem
  next custom _ =>
    split at hpattern
    next hkind =>
      have hall := eq_singleton_of_single hpattern
      have hmem : (method, text) ∈
          rule.commonPatterns ++ [(custom.kind, custom.path)] := by
        simp [hall]
      rcases List.mem_append.mp hmem with hcommon | hcustom
      · exact isMethodToken_of_mem_commonPatterns hcommon
      · have hsame : method = custom.kind :=
          congrArg Prod.fst (List.mem_singleton.mp hcustom)
        rw [hsame]
        exact hkind
    next => contradiction

theorem map_spec_of_additionalSpecs {selector : String} {rules : List HttpRule}
    {specs : List RouteSpec}
    (hspecs : additionalSpecs selector rules = .ok specs) :
    rules.map (HttpRule.spec selector) = specs.map .ok := by
  induction rules generalizing specs with
  | nil =>
      have hnil : [] = specs := Except.ok.inj hspecs
      rw [← hnil]
      rfl
  | cons rule rules ih =>
      rw [additionalSpecs] at hspecs
      split at hspecs
      · contradiction
      obtain ⟨first, hfirst, hspecs⟩ := except_bind_eq_ok hspecs
      obtain ⟨others, hothers, hspecs⟩ := except_bind_eq_ok hspecs
      have hcons : first :: others = specs := Except.ok.inj hspecs
      rw [← hcons, List.map_cons, List.map_cons, hfirst, ih hothers]

theorem map_spec_of_specs {rule : HttpRule} {specs : List RouteSpec}
    (hspecs : rule.specs = .ok specs) :
    rule.bindings.map DocumentBinding.spec = specs.map .ok := by
  rw [HttpRule.specs] at hspecs
  split at hspecs
  · contradiction
  obtain ⟨first, hfirst, hspecs⟩ := except_bind_eq_ok hspecs
  obtain ⟨others, hothers, hspecs⟩ := except_bind_eq_ok hspecs
  have hcons : first :: others = specs := Except.ok.inj hspecs
  rw [← hcons, bindings, List.map_cons, List.map_cons, List.map_map,
    ← map_spec_of_additionalSpecs hothers]
  exact congrArg (· :: _) hfirst

end HttpRule

/-- The bindings of a document are listed in document order and none is left
out. -/
theorem RuleSet.map_spec_of_routes {rules : RuleSet} {specs : List RouteSpec}
    (hroutes : rules.routes = .ok specs) :
    rules.bindings.map DocumentBinding.spec = specs.map .ok := by
  obtain ⟨rules⟩ := rules
  unfold routes at hroutes
  unfold bindings
  induction rules generalizing specs with
  | nil =>
      have hnil : [] = specs := Except.ok.inj hroutes
      rw [← hnil]
      rfl
  | cons rule rules ih =>
      rw [specsOfRules] at hroutes
      obtain ⟨first, hfirst, hroutes⟩ := except_bind_eq_ok hroutes
      obtain ⟨others, hothers, hroutes⟩ := except_bind_eq_ok hroutes
      have happend : first ++ others = specs := Except.ok.inj hroutes
      rw [← happend, List.flatMap_cons, List.map_append, List.map_append,
        HttpRule.map_spec_of_specs hfirst, ih hothers]

/-- A binding asks for the same route in the document and in the list of all
bindings. -/
theorem DocumentBinding.route?_eq_attempt (settings : TableSettings)
    (entry : DocumentBinding) :
    entry.route? =
      entry.spec.toOption.bind fun spec => (spec.attempt settings).route? := by
  rw [route?, spec, HttpRule.spec]
  cases hpattern : entry.binding.pattern with
  | error cause => rfl
  | ok pattern =>
      obtain ⟨method, text⟩ := pattern
      have hmethod := HttpRule.isMethodToken_of_pattern hpattern
      exact (if_pos hmethod).symm

theorem RuleSet.filterMap_route?_of_routes {rules : RuleSet}
    {specs : List RouteSpec} (settings : TableSettings)
    (hroutes : rules.routes = .ok specs) :
    rules.bindings.filterMap DocumentBinding.route? =
      (specs.map (RouteSpec.attempt settings)).filterMap
        Builder.Attempt.route? := by
  have hspecs := RuleSet.map_spec_of_routes hroutes
  calc rules.bindings.filterMap DocumentBinding.route?
      = (rules.bindings.map DocumentBinding.spec).filterMap fun spec =>
          spec.toOption.bind fun spec => (spec.attempt settings).route? := by
        rw [List.filterMap_map]
        exact List.filterMap_congr fun entry _ =>
          entry.route?_eq_attempt settings
    _ = (specs.map (RouteSpec.attempt settings)).filterMap
          Builder.Attempt.route? := by
        rw [hspecs, List.filterMap_map, List.filterMap_map]
        rfl

theorem DocumentBinding.pattern_of_route? {entry : DocumentBinding}
    {route : Route String} (hroute : entry.route? = some route) :
    ∃ text, entry.binding.pattern = .ok (route.method, text) ∧
      Template.parse text = .ok route.template ∧
      entry.rule.selector = route.operation := by
  unfold route? at hroute
  split at hroute
  next => contradiction
  next method text hpattern =>
    split at hroute
    next => contradiction
    next parsed hparse =>
      have heq := Option.some.inj hroute
      subst heq
      exact ⟨text, hpattern, hparse, rfl⟩

/-! ## Answers -/

/-- A route of the same class takes the same requests. -/
theorem Builder.Consistent.finds_of_conflictClass {α : Type}
    {builder : Builder α} (hgood : builder.Consistent) {route : Route α}
    (hmem : route.conflictClass ∈ builder.routes.map Route.conflictClass)
    {path : String} {segments : List String}
    (htakes : TakesVerb route.verb (requestSegments path) segments)
    (hfits : Fits route.shape segments) :
    builder.build.Finds route.method path := by
  obtain ⟨kept, hkept, hclass⟩ := List.mem_map.mp hmem
  obtain ⟨hshape, hslot, _⟩ := Route.conflictClass_eq_iff.mp hclass
  have hmethod : kept.method = route.method := congrArg Slot.method hslot
  have hverb : kept.verb = route.verb := congrArg Slot.verb hslot
  have hcolon (verb : String) (hsome : kept.verb = some verb) :
      ':' ∉ verb.toList :=
    ((hgood.wellFormed hkept).verb verb hsome).colon_not_mem
  rw [hgood.finds_iff, hgood.select?_eq, ← hmethod]
  exact RouteList.select?_ne_none hkept hcolon (hverb ▸ htakes)
    (hshape ▸ hfits)

/-- A table that is built from a document finds every request that one of its
bindings is for, and answers with the first binding of a class, under the
selector of its rule. -/
theorem RuleSet.lookup_eq_first_binding {rules : RuleSet}
    {specs : List RouteSpec} {settings : TableSettings}
    {table : Matcher String} (hroutes : rules.routes = .ok specs)
    (hbuild : (buildMatcher settings specs).result = .ok table) :
    (∀ entry ∈ rules.bindings, ∀ route, entry.route? = some route →
      ∀ path segments, TakesVerb route.verb (requestSegments path) segments →
        Fits route.shape segments → table.Finds route.method path) ∧
    ∀ method path found, table.lookup method path = .ok found →
      ∃ front entry back, rules.bindings = front ++ entry :: back ∧
        entry.rule.selector = found.route.operation ∧
        found.route.method = method ∧
        (∃ text, entry.binding.pattern = .ok (method, text) ∧
          Template.parse text = .ok found.route.template) ∧
        ∀ earlier ∈ front, ∀ route, earlier.route? = some route →
          route.conflictClass ≠ found.route.conflictClass := by
  have htable := buildMatcher_eq_run hbuild
  have hgood := Builder.consistent_run (specs.map (RouteSpec.attempt settings))
  have hkept : (Builder.run (specs.map (RouteSpec.attempt settings))).routes =
      firstOfClass (rules.bindings.filterMap DocumentBinding.route?) := by
    rw [Builder.routes_run, RuleSet.filterMap_route?_of_routes settings hroutes]
  constructor
  · intro entry hentry route hroute path segments htakes hfits
    have hasked : route ∈ rules.bindings.filterMap DocumentBinding.route? :=
      List.mem_filterMap.mpr ⟨entry, hentry, hroute⟩
    rw [htable]
    apply hgood.finds_of_conflictClass _ htakes hfits
    rw [hkept, mem_map_firstOfClass]
    exact List.mem_map_of_mem hasked
  · intro method path found hlookup
    rw [htable] at hlookup
    obtain ⟨selection, hselect, hroute, _⟩ := hgood.lookup_eq_ok hlookup
    obtain ⟨hmem, hmethod, _⟩ := RouteList.select?_eq_some hselect
    rw [hroute] at hmem hmethod
    rw [hkept] at hmem
    obtain ⟨before, after, hasked, hfirst⟩ :=
      exists_append_of_mem_firstOfClass hmem
    obtain ⟨front, others, hbindings, hbefore, hothers⟩ :=
      List.filterMap_eq_append_iff.mp hasked
    -- Between the bindings before and the one that is found stand only such as
    -- ask for no route.
    obtain ⟨skipped, entry, back, hsplit, hskipped, hentry, _⟩ :=
      List.filterMap_eq_cons_iff.mp hothers
    obtain ⟨text, hpattern, hparse, hselector⟩ :=
      DocumentBinding.pattern_of_route? hentry
    rw [hmethod] at hpattern
    refine ⟨front ++ skipped, entry, back, ?_, hselector, hmethod,
      ⟨text, hpattern, hparse⟩, ?_⟩
    · rw [hbindings, hsplit, List.append_assoc]
    · intro earlier hearlier route hasks
      rcases List.mem_append.mp hearlier with hfront | hnone
      · apply hfirst
        rw [← hbefore]
        exact List.mem_filterMap.mpr ⟨earlier, hfront, hasks⟩
      · rw [hskipped earlier hnone] at hasks
        contradiction

theorem RuleSet.lookup_eq_first_binding_with_dropped_rule :
    ∃ (rules : RuleSet) (specs : List RouteSpec) (table : Matcher String),
      rules.rules =
        [{ HttpRule.blank with
            selector := "list"
            post := some "/v1/**"
            additionalBindings := [{ HttpRule.blank with get := some "/v1/{a=*}" }] },
          { HttpRule.blank with selector := "read", get := some "/v1/{b}" }] ∧
      rules.routes = .ok specs ∧
      (buildMatcher ⟨.keepFirst, .skip, 0⟩ specs).result = .ok table ∧
      table.Finds "GET" "/v1/x" ∧
      ∃ found front entry back, table.lookup "GET" "/v1/x" = .ok found ∧
        rules.bindings = front ++ entry :: back ∧
        entry.rule.selector = found.route.operation ∧
        found.route.operation = "list" ∧
        ∀ earlier ∈ front, ∀ route, earlier.route? = some route →
          route.conflictClass ≠ found.route.conflictClass := by
  let read : HttpRule :=
    { HttpRule.blank with selector := "read", get := some "/v1/{b}" }
  let rules : RuleSet :=
    ⟨[{ HttpRule.blank with
        selector := "list"
        post := some "/v1/**"
        additionalBindings := [{ HttpRule.blank with get := some "/v1/{a=*}" }] },
      read]⟩
  let specs : List RouteSpec :=
    [⟨"POST", "/v1/**", "list", none⟩, ⟨"GET", "/v1/{a=*}", "list", none⟩,
      ⟨"GET", "/v1/{b}", "read", none⟩]
  have hroutes : rules.routes = .ok specs := rfl
  have hok : (buildMatcher ⟨.keepFirst, .skip, 0⟩ specs).result.isOk = true := by
    decide +kernel
  obtain ⟨table, hbuild⟩ : ∃ table,
      (buildMatcher ⟨.keepFirst, .skip, 0⟩ specs).result = .ok table := by
    cases hresult : (buildMatcher ⟨.keepFirst, .skip, 0⟩ specs).result with
    | error cause =>
        rw [hresult] at hok
        contradiction
    | ok table => exact ⟨table, rfl⟩
  obtain ⟨hfinds, hanswers⟩ := lookup_eq_first_binding hroutes hbuild
  have hread : (⟨read, read⟩ : DocumentBinding) ∈ rules.bindings := by
    simp [rules, bindings, HttpRule.bindings]
  have hasks : (⟨read, read⟩ : DocumentBinding).route? = some ⟨"GET",
      ⟨[.plain (.literal "v1"), .variable ⟨⟨["b"]⟩, [.any]⟩], none⟩, "read"⟩ := by
    decide +kernel
  have htakes : ["v1", "x"] = requestSegments "/v1/x" := by decide +kernel
  have hfits : Fits [.literal "v1", .any] ["v1", "x"] :=
    .literal (.any (by decide) .nil)
  have hfound : table.Finds "GET" "/v1/x" :=
    hfinds _ hread _ hasks _ _ htakes hfits
  have hlookup : table.lookup "GET" "/v1/x" = .ok ⟨⟨"GET",
      ⟨[.plain (.literal "v1"), .variable ⟨⟨["a"]⟩, [.any]⟩], none⟩, "list"⟩,
      [("a", "x")]⟩ := by
    rw [buildMatcher_eq_run hbuild]
    decide +kernel
  obtain ⟨front, entry, back, hbindings, hselector, _, _, hfirst⟩ :=
    hanswers _ _ _ hlookup
  exact ⟨rules, specs, table, rfl, hroutes, hbuild, hfound, _, front, entry, back,
    hlookup, hbindings, hselector, rfl, hfirst⟩

end HttpRoutes
