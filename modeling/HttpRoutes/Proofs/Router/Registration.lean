import HttpRoutes.Proofs.Router.Paths
import HttpRoutes.Router.Matcher

/-!
# What a run of registrations builds

A run registers routes one after the other on an empty builder.  Each attempt
has its own duplicate policy, and many of them may fail.  A failed attempt
leaves the builder as it was, so only the addition of a route that conflicts
with none has to be looked at.

A consistent builder is one whose trie says about its routes what their shapes,
methods and verbs say: the candidates at a node are the routes whose shape
leads there, those with more variables first, and no two of them tie.  Adding a
route keeps a builder consistent, and so does every run.
-/

namespace HttpRoutes

def Route.shape {α : Type} (route : Route α) : List Element := route.template.shape

namespace Builder

variable {α : Type}

/-! ## The candidates of a slot -/

theorem mem_insertCandidate_iff {count : Nat → Nat} {index other : Nat}
    {others : List Nat} :
    other ∈ insertCandidate count index others ↔
      other = index ∨ other ∈ others := by
  induction others with
  | nil => simp [insertCandidate]
  | cons first others ih =>
      rw [insertCandidate]
      split
      · rw [List.mem_cons, List.mem_cons, ih, or_left_comm]
      · rw [List.mem_cons]

/-- The candidates of a slot come in the order of their numbers of variables,
larger first. -/
def Decreasing (count : Nat → Nat) (candidates : List Nat) : Prop :=
  candidates.Pairwise fun first second => count second < count first

theorem decreasing_insertCandidate {count : Nat → Nat} {index : Nat}
    {others : List Nat} (hothers : Decreasing count others)
    (hties : ∀ other ∈ others, count other ≠ count index) :
    Decreasing count (insertCandidate count index others) := by
  unfold Decreasing at hothers ⊢
  induction others with
  | nil => simp [insertCandidate]
  | cons first others ih =>
      rw [List.pairwise_cons] at hothers
      obtain ⟨hfirst, hlater⟩ := hothers
      have htie := hties first (by simp)
      rw [insertCandidate]
      split
      next hle =>
        rw [List.pairwise_cons]
        refine ⟨?_, ih hlater fun other hmem => hties other (by simp [hmem])⟩
        intro other hmem
        rcases mem_insertCandidate_iff.mp hmem with heq | hmem
        · subst other
          omega
        · exact hfirst other hmem
      next hnot =>
        rw [List.pairwise_cons]
        refine ⟨?_, List.pairwise_cons.mpr ⟨hfirst, hlater⟩⟩
        intro other hmem
        rcases List.mem_cons.mp hmem with heq | hmem
        · subst other
          omega
        · have := hfirst other hmem
          omega

theorem Decreasing.congr {count count' : Nat → Nat} {candidates : List Nat}
    (hdecreasing : Decreasing count candidates)
    (hcount : ∀ index ∈ candidates, count' index = count index) :
    Decreasing count' candidates := by
  apply List.Pairwise.imp_of_mem _ hdecreasing
  intro first second hfirst hsecond hlt
  rw [hcount first hfirst, hcount second hsecond]
  exact hlt

theorem variableCount_of_getElem? {routes : List (Route α)} {index : Nat}
    {route : Route α} (hroute : routes[index]? = some route) :
    variableCount routes index = route.variableCount := by
  simp [variableCount, hroute]

theorem getElem?_append_singleton_eq_some_iff {routes : List (Route α)}
    {route found : Route α} {index : Nat} :
    (routes ++ [route])[index]? = some found ↔
      routes[index]? = some found ∨ index = routes.length ∧ route = found := by
  rw [List.getElem?_append]
  split
  next hlt =>
    constructor
    · exact .inl
    · rintro (hfound | ⟨heq, _⟩)
      · exact hfound
      · omega
  next hge =>
    have hnone : routes[index]? = none := by simpa using hge
    rw [hnone]
    by_cases heq : index = routes.length
    · simp [heq]
    · have hpos : index - routes.length ≠ 0 := by omega
      simp [hpos, heq]

/-! ## Consistent builders -/

structure Consistent (builder : Builder α) : Prop where
  mem_routesAt :
    ∀ path slot index, index ∈ builder.trie.routesAt path slot ↔
      ∃ route, builder.routes[index]? = some route ∧
        route.shape = path ∧ route.slot = slot
  decreasing :
    ∀ path slot, Decreasing (variableCount builder.routes)
      (builder.trie.routesAt path slot)
  mem_registered :
    ∀ key, key ∈ builder.registered ↔
      ∃ route ∈ builder.routes, (route.method, route.pattern) = key
  mem_verbs :
    ∀ verb, verb ∈ builder.verbs ↔
      ∃ route ∈ builder.routes, route.verb = some verb
  parsed :
    ∀ route ∈ builder.routes, ∃ text, Template.parse text = .ok route.template
  method : ∀ route ∈ builder.routes, isMethodToken route.method = true

theorem consistent_empty : (empty : Builder α).Consistent := by
  constructor <;> simp [empty, Decreasing]

/-- A route is looked up and bound at the end of its shape. -/
theorem routesOf_flatten (builder : Builder α) (route : Route α) :
    builder.trie.routesOf route.template.flatten route.slot =
      builder.trie.routesAt route.shape route.slot :=
  Trie.routesOf_eq _ _ _

theorem trie_add (builder : Builder α) (route : Route α) :
    (builder.add route).trie =
      builder.trie.update
        (Candidates.update route.slot
          (insertCandidate (variableCount (builder.routes ++ [route]))
            builder.routes.length))
        route.shape :=
  Trie.insertPath_eq _ _ _

/-- A route that conflicts with none ties with none of the candidates of its
slot. -/
theorem Consistent.count_ne_of_conflict?_eq_none {builder : Builder α}
    (hgood : builder.Consistent) {route : Route α}
    (hnone : builder.conflict? route = none) :
    ∀ index ∈ builder.trie.routesAt route.shape route.slot,
      variableCount builder.routes index ≠ route.variableCount := by
  intro index hmem hcount
  rw [conflict?, routesOf_flatten] at hnone
  split at hnone
  · simp at hnone
  · cases hfind : (builder.trie.routesAt route.shape route.slot).find?
        fun index => variableCount builder.routes index = route.variableCount with
    | none =>
        rw [List.find?_eq_none] at hfind
        exact hfind index hmem (by simpa using hcount)
    | some other =>
        obtain ⟨found, hfound, _⟩ :=
          (hgood.mem_routesAt _ _ _).mp (List.mem_of_find?_eq_some hfind)
        simp [hfind, hfound] at hnone

theorem mem_insertOnce_iff {text other : String} {texts : List String} :
    other ∈ insertOnce text texts ↔ other ∈ texts ∨ other = text := by
  unfold insertOnce
  split
  next hmem =>
    constructor
    · exact .inl
    · rintro (hother | rfl)
      · exact hother
      · exact hmem
  next => simp

theorem routesAt_add (builder : Builder α) (route : Route α)
    (path : List Element) (slot : Slot) :
    (builder.add route).trie.routesAt path slot =
      if route.shape = path ∧ route.slot = slot then
        insertCandidate (variableCount (builder.routes ++ [route]))
          builder.routes.length (builder.trie.routesAt route.shape route.slot)
      else builder.trie.routesAt path slot := by
  rw [trie_add, Trie.routesAt_update]

theorem Consistent.variableCount_append {builder : Builder α}
    (hgood : builder.Consistent) (route : Route α) {path : List Element}
    {slot : Slot} {index : Nat}
    (hmem : index ∈ builder.trie.routesAt path slot) :
    variableCount (builder.routes ++ [route]) index =
      variableCount builder.routes index := by
  obtain ⟨found, hfound, _⟩ := (hgood.mem_routesAt _ _ _).mp hmem
  have happend : (builder.routes ++ [route])[index]? = some found :=
    getElem?_append_singleton_eq_some_iff.mpr (.inl hfound)
  rw [variableCount_of_getElem? happend, variableCount_of_getElem? hfound]

theorem Consistent.add {builder : Builder α} (hgood : builder.Consistent)
    {route : Route α} {text : String}
    (hmethod : isMethodToken route.method = true)
    (hparse : Template.parse text = .ok route.template)
    (hnone : builder.conflict? route = none) :
    (builder.add route).Consistent := by
  have hroutes : (builder.add route).routes = builder.routes ++ [route] := rfl
  constructor
  · intro path slot index
    simp only [routesAt_add, hroutes, getElem?_append_singleton_eq_some_iff]
    split
    next heq =>
      obtain ⟨rfl, rfl⟩ := heq
      rw [mem_insertCandidate_iff, hgood.mem_routesAt]
      constructor
      · rintro (rfl | ⟨found, hfound, hshape⟩)
        · exact ⟨route, .inr ⟨rfl, rfl⟩, rfl, rfl⟩
        · exact ⟨found, .inl hfound, hshape⟩
      · rintro ⟨found, hfound | ⟨rfl, _⟩, hshape⟩
        · exact .inr ⟨found, hfound, hshape⟩
        · exact .inl rfl
    next hne =>
      rw [hgood.mem_routesAt]
      constructor
      · rintro ⟨found, hfound, hshape⟩
        exact ⟨found, .inl hfound, hshape⟩
      · rintro ⟨found, hfound | ⟨_, rfl⟩, hshape⟩
        · exact ⟨found, hfound, hshape⟩
        · exact absurd hshape hne
  · intro path slot
    rw [routesAt_add, hroutes]
    split
    next =>
      have hnew : variableCount (builder.routes ++ [route])
          builder.routes.length = route.variableCount :=
        variableCount_of_getElem?
          (getElem?_append_singleton_eq_some_iff.mpr (.inr ⟨rfl, rfl⟩))
      apply decreasing_insertCandidate
      · exact (hgood.decreasing _ _).congr fun index hmem =>
          hgood.variableCount_append route hmem
      · intro other hmem
        rw [hnew, hgood.variableCount_append route hmem]
        exact hgood.count_ne_of_conflict?_eq_none hnone other hmem
    next =>
      exact (hgood.decreasing _ _).congr fun index hmem =>
        hgood.variableCount_append route hmem
  · intro key
    simp [Builder.add, hgood.mem_registered, or_and_right, exists_or, eq_comm]
  · intro verb
    cases hverb : route.verb with
    | none =>
        simp [Builder.add, hverb, hgood.mem_verbs, or_and_right, exists_or]
    | some name =>
        simp [Builder.add, hverb, mem_insertOnce_iff, hgood.mem_verbs,
          or_and_right, exists_or, eq_comm]
  · intro found hmem
    rw [hroutes, List.mem_append, List.mem_singleton] at hmem
    rcases hmem with hmem | rfl
    · exact hgood.parsed found hmem
    · exact ⟨text, hparse⟩
  · intro found hmem
    rw [hroutes, List.mem_append, List.mem_singleton] at hmem
    rcases hmem with hmem | rfl
    · exact hgood.method found hmem
    · exact hmethod

/-! ## Runs -/

structure Attempt (α : Type) where
  policy : DuplicatePolicy
  method : String
  template : String
  operation : α

def attempt (builder : Builder α) (request : Attempt α) : Builder α :=
  (builder.register request.policy request.method request.template
    request.operation).1

/-- The builder after all attempts, made in turn on an empty builder. -/
def run (requests : List (Attempt α)) : Builder α :=
  requests.foldl attempt empty

/-- All that can come of a registration. -/
theorem register_cases (policy : DuplicatePolicy) (method template : String)
    (operation : α) (builder : Builder α) :
    (isMethodToken method = false ∧
      builder.register policy method template operation =
        (builder, .refused (.invalidMethod method))) ∨
    (isMethodToken method = true ∧ ∃ error,
      Template.parse template = .error error ∧
        builder.register policy method template operation =
          (builder, .refused (.parse error))) ∨
    (isMethodToken method = true ∧ ∃ parsed,
      Template.parse template = .ok parsed ∧
        ((builder.conflict? ⟨method, parsed, operation⟩ = none ∧
          builder.register policy method template operation =
            (builder.add ⟨method, parsed, operation⟩,
              .added method parsed.text parsed.bindings.length builder.size)) ∨
        ∃ existing,
          builder.conflict? ⟨method, parsed, operation⟩ = some existing ∧
            builder.register policy method template operation =
              (builder,
                match policy with
                | .reject => .refused (.conflict method parsed.text)
                | .keepFirst => .dropped method parsed.text existing))) := by
  unfold register
  cases hmethod : isMethodToken method with
  | false => simp
  | true =>
      cases hparse : Template.parse template with
      | error error => simp
      | ok parsed =>
          refine .inr (.inr ⟨rfl, parsed, rfl, ?_⟩)
          simp only [if_true, registerRoute]
          cases builder.conflict? ⟨method, parsed, operation⟩ with
          | none => exact .inl ⟨rfl, rfl⟩
          | some existing =>
              refine .inr ⟨existing, rfl, ?_⟩
              cases policy <;> rfl

/-- The policy decides what comes of a conflict, not what becomes of the
builder. -/
theorem fst_register_eq (policy other : DuplicatePolicy)
    (method template : String) (operation : α) (builder : Builder α) :
    (builder.register policy method template operation).1 =
      (builder.register other method template operation).1 := by
  unfold register
  split
  next =>
    cases Template.parse template with
    | error error => rfl
    | ok parsed =>
        simp only [registerRoute]
        cases builder.conflict? ⟨method, parsed, operation⟩ with
        | none => rfl
        | some existing => cases policy <;> cases other <;> rfl
  next => rfl

/-- An attempt leaves the builder as it was or adds a route that conflicts with
none. -/
theorem attempt_cases (builder : Builder α) (request : Attempt α) :
    builder.attempt request = builder ∨
      ∃ parsed, isMethodToken request.method = true ∧
        Template.parse request.template = .ok parsed ∧
        builder.conflict? ⟨request.method, parsed, request.operation⟩ = none ∧
        builder.attempt request =
          builder.add ⟨request.method, parsed, request.operation⟩ := by
  unfold attempt
  rcases register_cases request.policy request.method request.template
    request.operation builder with ⟨_, heq⟩ | ⟨_, _, _, heq⟩ |
      ⟨hmethod, parsed, hparse, ⟨hnone, heq⟩ | ⟨_, _, heq⟩⟩
  · exact .inl (by rw [heq])
  · exact .inl (by rw [heq])
  · exact .inr ⟨parsed, hmethod, hparse, hnone, by rw [heq]⟩
  · exact .inl (by rw [heq])

theorem Consistent.attempt {builder : Builder α} (hgood : builder.Consistent)
    (request : Attempt α) : (builder.attempt request).Consistent := by
  rcases builder.attempt_cases request with
    heq | ⟨parsed, hmethod, hparse, hnone, heq⟩
  · rw [heq]
    exact hgood
  · rw [heq]
    exact hgood.add hmethod hparse hnone

theorem consistent_run (requests : List (Attempt α)) :
    (run requests).Consistent := by
  have hfrom (builder : Builder α) (hgood : builder.Consistent) :
      (requests.foldl Builder.attempt builder).Consistent := by
    induction requests generalizing builder with
    | nil => exact hgood
    | cons request requests ih => exact ih _ (hgood.attempt request)
  exact hfrom empty consistent_empty

end Builder
end HttpRoutes
