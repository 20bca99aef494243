import HttpRoutes.Proofs.Router.Methods
import HttpRoutes.Proofs.Router.Nodes

/-!
# What a builder stores about its routes

A builder keeps its routes four times over: as a list, in the candidate lists
of its trie, as a set of methods with canonical texts, and as a set of verbs.
After every run of registrations the last three say exactly what the list says,
and the trie holds nothing besides.  The numbers of all routes, taken together
from all candidate lists, are the numbers below the number of routes, each once;
each stands where the shape, the method and the verb of its route put it; and
there is no node that does not lie on the way to some route.

What lies on the way to a route are the front parts of its shape.  Since a
shape holds a `**` at its end only, no path goes on behind a `**`.
-/

namespace HttpRoutes

theorem rest_not_mem_dropLast_cutAfterRest (elements : List Element) :
    .rest ∉ (cutAfterRest elements).dropLast := by
  induction elements with
  | nil => simp
  | cons element elements ih =>
      have hcons (first : Element) (hfirst : first ≠ .rest) :
          .rest ∉ (first :: cutAfterRest elements).dropLast := by
        cases hcut : cutAfterRest elements with
        | nil => simp
        | cons other others =>
            rw [List.dropLast_cons_of_ne_nil (by simp), List.mem_cons, not_or,
              ← hcut]
            exact ⟨Ne.symm hfirst, ih⟩
      cases element with
      | literal text => exact hcons (.literal text) (by simp)
      | any => exact hcons .any (by simp)
      | rest => simp

theorem not_prefix_of_rest_not_mem_dropLast {front shape : List Element}
    (hlast : .rest ∉ shape.dropLast) (element : Element) :
    ¬ front ++ [.rest, element] <+: shape := by
  intro hprefix
  obtain ⟨tail, rfl⟩ := hprefix
  apply hlast
  rw [List.append_assoc, List.dropLast_append_of_ne_nil (by simp)]
  simp

namespace Builder

variable {α : Type}

/-- Nothing stands twice in a builder, and its nodes are those on the way to its
routes. -/
structure Tidy (builder : Builder α) : Prop where
  children : builder.trie.DistinctChildren
  slots : builder.trie.DistinctSlots
  reached :
    ∀ path, (builder.trie.find? path).isSome ↔
      path = [] ∨ ∃ route ∈ builder.routes, path <+: route.shape
  registered : builder.registered.Nodup
  verbs : builder.verbs.Nodup

theorem tidy_empty : (empty : Builder α).Tidy := by
  constructor
  · exact Trie.distinctChildren_empty
  · exact Trie.distinctSlots_empty
  · intro path
    cases path <;>
      simp [empty, Trie.find?, Trie.empty, Trie.child?, Branches.child?]
  · exact List.nodup_nil
  · exact List.nodup_nil

theorem not_mem_registered_of_conflict?_eq_none {builder : Builder α}
    {route : Route α} (hnone : builder.conflict? route = none) :
    (route.method, route.pattern) ∉ builder.registered := by
  intro hmem
  rw [conflict?, if_pos hmem] at hnone
  contradiction

theorem Tidy.add {builder : Builder α} (htidy : builder.Tidy)
    {route : Route α} (hnone : builder.conflict? route = none) :
    (builder.add route).Tidy := by
  constructor
  · rw [trie_add]
    exact htidy.children.update _ _
  · exact distinctSlots_add htidy.slots route
  · intro path
    rw [trie_add, Trie.isSome_find?_update, htidy.reached, or_assoc]
    simp [Builder.add, or_and_right, exists_or]
  · unfold Builder.add
    rw [List.nodup_append]
    refine ⟨htidy.registered, List.nodup_singleton _, ?_⟩
    intro key hkey other hother heq
    rw [heq, List.mem_singleton.mp hother] at hkey
    exact not_mem_registered_of_conflict?_eq_none hnone hkey
  · unfold Builder.add
    cases route.verb with
    | none => exact htidy.verbs
    | some verb => exact Matcher.nodup_insertOnce htidy.verbs

theorem tidy_run (requests : List (Attempt α)) : (run requests).Tidy := by
  refine List.foldlRecOn (motive := Tidy) requests attempt tidy_empty ?_
  intro builder htidy request _
  rcases builder.attempt_cases request with heq | ⟨parsed, _, _, hnone, heq⟩
  · rw [heq]
    exact htidy
  · rw [heq]
    exact htidy.add hnone

/-! ## Candidate lists -/

theorem Decreasing.nodup {count : Nat → Nat} {candidates : List Nat}
    (hdecreasing : Decreasing count candidates) : candidates.Nodup := by
  apply List.Pairwise.imp _ hdecreasing
  intro first second hlt heq
  rw [heq] at hlt
  exact Nat.lt_irrefl _ hlt

/-- A candidate is the number of a route that belongs at its place. -/
theorem Consistent.exists_route_of_mem_lists {builder : Builder α}
    (hgood : builder.Consistent) (htidy : builder.Tidy)
    {place : List Element × Slot} {candidates : List Nat} {index : Nat}
    (hlist : (place, candidates) ∈ builder.trie.lists)
    (hmem : index ∈ candidates) :
    ∃ route, builder.routes[index]? = some route ∧
      place = (route.shape, route.slot) := by
  obtain ⟨path, slot⟩ := place
  have hroutesAt :=
    Trie.routesAt_of_mem_lists htidy.children htidy.slots hlist
  rw [← hroutesAt, hgood.mem_routesAt] at hmem
  obtain ⟨route, hroute, rfl, rfl⟩ := hmem
  exact ⟨route, hroute, rfl⟩

theorem Consistent.exists_list_of_route {builder : Builder α}
    (hgood : builder.Consistent) (htidy : builder.Tidy) {index : Nat}
    {route : Route α} (hroute : builder.routes[index]? = some route) :
    ∃ candidates,
      ((route.shape, route.slot), candidates) ∈ builder.trie.lists ∧
        index ∈ candidates := by
  have hmem : index ∈ builder.trie.routesAt route.shape route.slot :=
    (hgood.mem_routesAt _ _ _).mpr ⟨route, hroute, rfl, rfl⟩
  exact ⟨_, Trie.mem_lists_of_routesAt_ne_nil htidy.children
    (List.ne_nil_of_mem hmem), hmem⟩

theorem Consistent.decreasing_of_mem_lists {builder : Builder α}
    (hgood : builder.Consistent) (htidy : builder.Tidy)
    {place : List Element × Slot} {candidates : List Nat}
    (hlist : (place, candidates) ∈ builder.trie.lists) :
    Decreasing (variableCount builder.routes) candidates := by
  obtain ⟨path, slot⟩ := place
  rw [← Trie.routesAt_of_mem_lists htidy.children htidy.slots hlist]
  exact hgood.decreasing path slot

theorem Consistent.perm_range {builder : Builder α}
    (hgood : builder.Consistent) (htidy : builder.Tidy) :
    (builder.trie.lists.flatMap Prod.snd).Perm
      (List.range builder.routes.length) := by
  have hnodup : (builder.trie.lists.flatMap Prod.snd).Nodup := by
    rw [List.nodup_flatMap]
    constructor
    · intro list hlist
      exact (hgood.decreasing_of_mem_lists htidy hlist).nodup
    · have hplaces := Trie.nodup_places htidy.children htidy.slots
      rw [List.Nodup, List.pairwise_map] at hplaces
      apply hplaces.imp_of_mem
      intro first second hfirst hsecond hne index hmem hmem'
      obtain ⟨route, hroute, hplace⟩ :=
        hgood.exists_route_of_mem_lists htidy hfirst hmem
      obtain ⟨route', hroute', hplace'⟩ :=
        hgood.exists_route_of_mem_lists htidy hsecond hmem'
      obtain rfl := Option.some.inj (hroute.symm.trans hroute')
      exact hne (hplace.trans hplace'.symm)
  rw [List.perm_ext_iff_of_nodup hnodup List.nodup_range]
  intro index
  rw [List.mem_flatMap, List.mem_range]
  constructor
  · intro hmem
    obtain ⟨list, hlist, hmem⟩ := hmem
    obtain ⟨route, hroute, _⟩ :=
      hgood.exists_route_of_mem_lists htidy hlist hmem
    exact (List.getElem?_eq_some_iff.mp hroute).1
  · intro hlt
    have hroute := List.getElem?_eq_getElem hlt
    obtain ⟨candidates, hlist, hmem⟩ := hgood.exists_list_of_route htidy hroute
    exact ⟨_, hlist, hmem⟩

/-! ## Nodes -/

theorem Tidy.eq_nil_of_rest {builder : Builder α} (htidy : builder.Tidy)
    {path : List Element} {bound : Candidates} {children : Branches}
    (hmem : (path ++ [.rest], .node bound children) ∈ builder.trie.nodes) :
    children = .nil := by
  have hfind := (Trie.mem_nodes_iff htidy.children).mp hmem
  cases children with
  | nil => rfl
  | cons element child others =>
      have hreached :
          (builder.trie.find? (path ++ [.rest, element])).isSome := by
        rw [List.append_cons, Trie.find?_append, hfind]
        simp [Trie.find?, Trie.child?, Branches.child?]
      rcases (htidy.reached _).mp hreached with heq | ⟨route, _, hprefix⟩
      · simp at heq
      · exact absurd hprefix (not_prefix_of_rest_not_mem_dropLast
          (rest_not_mem_dropLast_cutAfterRest _) element)

theorem Tidy.exists_list_below {builder : Builder α} (htidy : builder.Tidy)
    (hgood : builder.Consistent) {path : List Element} {node : Trie}
    (hmem : (path, node) ∈ builder.trie.nodes) (hpath : path ≠ []) :
    ∃ place candidates, (place, candidates) ∈ node.lists ∧
      ∃ index ∈ candidates, index < builder.routes.length := by
  have hfind := (Trie.mem_nodes_iff htidy.children).mp hmem
  have hreached := (htidy.reached path).mp (by simp [hfind])
  obtain ⟨route, hroute, tail, hshape⟩ := hreached.resolve_left hpath
  obtain ⟨index, hindex⟩ := List.getElem?_of_mem hroute
  obtain ⟨candidates, hlist, hcandidate⟩ :=
    hgood.exists_list_of_route htidy hindex
  obtain ⟨below, hbelow, hbound⟩ :=
    (Trie.mem_lists_iff htidy.children).mp hlist
  rw [← hshape, Trie.find?_append, hfind, Option.bind_some] at hbelow
  have hnode : node.DistinctChildren := htidy.children.find hfind
  exact ⟨(tail, route.slot), candidates,
    (Trie.mem_lists_iff hnode).mpr ⟨below, hbelow, hbound⟩,
    index, hcandidate, (List.getElem?_eq_some_iff.mp hindex).1⟩

/-! ## The builder as a whole -/

structure Faithful (builder : Builder α) : Prop where
  /-- There is one candidate list for each path and slot. -/
  nodup_places : (builder.trie.lists.map Prod.fst).Nodup
  /-- The candidate lists hold the number of each route once and no other. -/
  perm_range :
    (builder.trie.lists.flatMap Prod.snd).Perm
      (List.range builder.routes.length)
  mem_list :
    ∀ index route, builder.routes[index]? = some route →
      ∃ candidates,
        ((route.shape, route.slot), candidates) ∈ builder.trie.lists ∧
          index ∈ candidates
  decreasing :
    ∀ place candidates, (place, candidates) ∈ builder.trie.lists →
      Decreasing (variableCount builder.routes) candidates
  childless_rest :
    ∀ path bound children,
      (path ++ [.rest], .node bound children) ∈ builder.trie.nodes →
        children = .nil
  /-- At or below every node but the root, some route is bound. -/
  no_idle_node :
    ∀ path node, (path, node) ∈ builder.trie.nodes → path ≠ [] →
      ∃ place candidates, (place, candidates) ∈ node.lists ∧
        ∃ index ∈ candidates, index < builder.routes.length
  mem_registered :
    ∀ key, key ∈ builder.registered ↔
      ∃ route ∈ builder.routes, (route.method, route.pattern) = key
  nodup_registered : builder.registered.Nodup
  mem_verbs :
    ∀ verb, verb ∈ builder.verbs ↔
      ∃ route ∈ builder.routes, route.verb = some verb
  nodup_verbs : builder.verbs.Nodup

/-- After every run of registrations, whichever of them failed, the trie and
the two sets say exactly what the list of routes says. -/
theorem faithful_run (requests : List (Attempt α)) :
    (run requests).Faithful := by
  have hgood : (run requests).Consistent := consistent_run requests
  have htidy : (run requests).Tidy := tidy_run requests
  constructor
  · exact Trie.nodup_places htidy.children htidy.slots
  · exact hgood.perm_range htidy
  · exact fun index route => hgood.exists_list_of_route htidy
  · exact fun place candidates => hgood.decreasing_of_mem_lists htidy
  · exact fun path bound children => htidy.eq_nil_of_rest
  · exact fun path node => htidy.exists_list_below hgood
  · exact hgood.mem_registered
  · exact htidy.registered
  · exact hgood.mem_verbs
  · exact htidy.verbs

example : (run [⟨.reject, "GET", "/a/*", 0⟩, ⟨.reject, "GET", "/a/{x}", 1⟩,
      ⟨.reject, "GET", "/a/b", 2⟩]).trie.lists =
    [(([.literal "a", .any], ⟨"GET", none⟩), [1, 0]),
      (([.literal "a", .literal "b"], ⟨"GET", none⟩), [2])] := by
  decide +kernel

end Builder
end HttpRoutes
