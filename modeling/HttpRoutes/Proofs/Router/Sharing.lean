import HttpRoutes.Proofs.Router.Conflict
import HttpRoutes.Proofs.Router.Representation
import Mathlib.Data.Finset.Card

/-!
# How far routes share nodes

Shapes that begin alike share the nodes of their common front.  In a trie whose
nodes have each element only once, counting the nodes is counting the paths that
lead to one.  After a run of registrations these are the root's path and the
fronts of the shapes of the routes, so the number of nodes is told by the shapes
alone, and a front that several of them have counts once.

Routes of one class have one shape.  So the routes that a run does not keep have
no fronts besides those of the routes it keeps, and the number of nodes is the
same in whichever order the same attempts are made.
-/

namespace HttpRoutes

/-- The fronts of some shapes without the empty one, each once. -/
def properFronts (shapes : List (List Element)) : Finset (List Element) :=
  (shapes.flatMap List.inits).toFinset.erase []

theorem mem_properFronts_iff {path : List Element}
    {shapes : List (List Element)} :
    path ∈ properFronts shapes ↔ path ≠ [] ∧ ∃ shape ∈ shapes, path <+: shape := by
  simp [properFronts]

/-- Shapes that are listed twice or in another order have no other fronts. -/
theorem properFronts_congr {shapes shapes' : List (List Element)}
    (hsame : ∀ shape, shape ∈ shapes' ↔ shape ∈ shapes) :
    properFronts shapes' = properFronts shapes := by
  ext path
  simp [mem_properFronts_iff, hsame]

/-! ## Counting nodes -/

mutual

theorem Trie.length_nodes (trie : Trie) :
    trie.nodes.length = trie.nodeCount := by
  match trie with
  | .node bound children =>
      rw [Trie.nodes, List.length_cons, Branches.length_nodes children,
        Trie.nodeCount, Nat.add_comm]

theorem Branches.length_nodes (branches : Branches) :
    branches.nodes.length = branches.nodeCount := by
  match branches with
  | .nil => rfl
  | .cons element child others =>
      rw [Branches.nodes, List.length_append, List.length_map,
        Trie.length_nodes child, Branches.length_nodes others,
        Branches.nodeCount]

end

namespace Trie

/-- Nodes are counted by the paths that lead to them. -/
theorem nodeCount_eq_card {trie : Trie} (hdistinct : trie.DistinctChildren)
    {paths : Finset (List Element)}
    (hpaths : ∀ path, path ∈ paths ↔ (trie.find? path).isSome) :
    trie.nodeCount = paths.card := by
  have hmem (path : List Element) :
      path ∈ trie.nodes.map Prod.fst ↔ (trie.find? path).isSome := by
    rw [List.mem_map, Option.isSome_iff_exists]
    constructor
    · rintro ⟨⟨other, node⟩, hnode, rfl⟩
      exact ⟨node, (mem_nodes_iff hdistinct).mp hnode⟩
    · rintro ⟨node, hfind⟩
      exact ⟨(path, node), (mem_nodes_iff hdistinct).mpr hfind, rfl⟩
  have hset : paths = (trie.nodes.map Prod.fst).toFinset := by
    ext path
    rw [hpaths, List.mem_toFinset, hmem]
  calc trie.nodeCount
      = (trie.nodes.map Prod.fst).length := by
        rw [List.length_map, length_nodes]
    _ = paths.card := by
        rw [hset, List.toFinset_card_of_nodup (nodup_paths hdistinct)]

end Trie

namespace Builder

variable {α : Type}

/-- There is the root and one node for each front of a route's shape. -/
theorem Tidy.nodeCount_eq {builder : Builder α} (htidy : builder.Tidy) :
    builder.trie.nodeCount =
      1 + (properFronts (builder.routes.map Route.shape)).card := by
  have hroot : [] ∉ properFronts (builder.routes.map Route.shape) := by
    simp [mem_properFronts_iff]
  have hpaths (path : List Element) :
      path ∈ insert [] (properFronts (builder.routes.map Route.shape)) ↔
        (builder.trie.find? path).isSome := by
    rw [htidy.reached, Finset.mem_insert, mem_properFronts_iff]
    by_cases hpath : path = [] <;> simp [hpath]
  rw [Trie.nodeCount_eq_card htidy.children hpaths,
    Finset.card_insert_of_notMem hroot, Nat.add_comm]

/-! ## Runs -/

theorem mem_map_shape_firstOfClass {shape : List Element}
    {routes : List (Route α)} :
    shape ∈ (firstOfClass routes).map Route.shape ↔
      shape ∈ routes.map Route.shape := by
  have hshapes (routes : List (Route α)) :
      routes.map Route.shape =
        (routes.map Route.conflictClass).map ConflictClass.shape := by
    rw [List.map_map]
    rfl
  rw [hshapes, hshapes, List.mem_map, List.mem_map]
  simp only [mem_map_firstOfClass]

/-- The fronts of the routes that a run keeps are those of all routes that are
asked for. -/
theorem properFronts_run (requests : List (Attempt α)) :
    properFronts ((run requests).routes.map Route.shape) =
      properFronts ((requests.filterMap Attempt.route?).map Route.shape) := by
  apply properFronts_congr
  intro shape
  rw [routes_run, mem_map_shape_firstOfClass]

theorem nodeCount_run_of_perm {requests requests' : List (Attempt α)}
    (hperm : requests'.Perm requests) :
    (run requests').trie.nodeCount = (run requests).trie.nodeCount := by
  have htidy : (run requests).Tidy := tidy_run requests
  have htidy' : (run requests').Tidy := tidy_run requests'
  have hshapes : ((requests'.filterMap Attempt.route?).map Route.shape).Perm
      ((requests.filterMap Attempt.route?).map Route.shape) :=
    (hperm.filterMap _).map _
  rw [htidy.nodeCount_eq, htidy'.nodeCount_eq, properFronts_run,
    properFronts_run, properFronts_congr fun _ => hshapes.mem_iff]

/-- An attempt that adds no route might as well not have been made. -/
theorem run_append_cons_of_not_added {requests : List (Attempt α)}
    {request : Attempt α}
    (hnot : ∀ method pattern varCount index,
      ((run requests).outcome request).2 ≠ .added method pattern varCount index)
    (later : List (Attempt α)) :
    run (requests ++ request :: later) = run (requests ++ later) := by
  have hkept : (run requests).attempt request = run requests := by
    change ((run requests).outcome request).1 = run requests
    unfold outcome at hnot ⊢
    rcases register_cases request.policy request.method request.template
      request.operation (run requests) with ⟨_, heq⟩ | ⟨_, _, _, heq⟩ |
        ⟨_, _, _, ⟨_, heq⟩ | ⟨_, _, heq⟩⟩
    · rw [heq]
    · rw [heq]
    · exact absurd (congrArg Prod.snd heq) (hnot _ _ _ _)
    · rw [heq]
  unfold run at hkept ⊢
  rw [List.foldl_append, List.foldl_cons, hkept, List.foldl_append]

/-- What building a matcher reports after a run.  The number of nodes is one
more than the number of different non-empty fronts of the shapes of its routes,
and the first ten routes are named; attempts that add no route leave nothing behind; and the same attempts in
another order make as many nodes. -/
theorem builtEvent_run (requests : List (Attempt α)) :
    (run requests).build.builtEvent =
        .matcherBuilt (run requests).routes.length (run requests).verbs.length
          (1 + (properFronts ((run requests).routes.map Route.shape)).card)
          (((run requests).routes.take 10).map fun route =>
            s!"{route.method} {route.pattern}") ∧
      (∀ request, (∀ method pattern varCount index,
          ((run requests).outcome request).2 ≠
            .added method pattern varCount index) →
        ∀ later, run (requests ++ request :: later) = run (requests ++ later)) ∧
      ∀ requests', requests'.Perm requests →
        (run requests').trie.nodeCount = (run requests).trie.nodeCount := by
  have htidy : (run requests).Tidy := tidy_run requests
  refine ⟨?_, ?_, ?_⟩
  · exact congrArg (LogEvent.matcherBuilt _ _ · _) htidy.nodeCount_eq
  · intro request hnot later
    exact run_append_cons_of_not_added hnot later
  · intro requests' hperm
    exact nodeCount_run_of_perm hperm

theorem builtEvent_run_with_shared_front :
    (run [⟨.reject, "GET", "/v1/a/{x}", 0⟩, ⟨.keepFirst, "PUT", "/v1/**/{y}", 1⟩,
        ⟨.reject, "GET", "/v1/a/*:go", 2⟩]).build.builtEvent =
      .matcherBuilt 3 1 5
        ["GET /v1/a/{x}", "PUT /v1/**/{y}", "GET /v1/a/*:go"] ∧
    run [⟨.reject, "GET", "/v1/a/{x}", 0⟩, ⟨.keepFirst, "PUT", "/v1/**/{y}", 1⟩,
        ⟨.reject, "GET", "/v1/a/*:go", 2⟩, ⟨.keepFirst, "GET", "/v1/a/{z}", 3⟩,
        ⟨.reject, "GET", "/v1/b", 4⟩] =
      run [⟨.reject, "GET", "/v1/a/{x}", 0⟩,
        ⟨.keepFirst, "PUT", "/v1/**/{y}", 1⟩, ⟨.reject, "GET", "/v1/a/*:go", 2⟩,
        ⟨.reject, "GET", "/v1/b", 4⟩] ∧
    (run [⟨.keepFirst, "PUT", "/v1/**/{y}", 1⟩,
        ⟨.reject, "GET", "/v1/a/{x}", 0⟩,
        ⟨.reject, "GET", "/v1/a/*:go", 2⟩]).trie.nodeCount = 5 := by
  obtain ⟨hevent, hdropped, horder⟩ := builtEvent_run
    [⟨.reject, "GET", "/v1/a/{x}", 0⟩, ⟨.keepFirst, "PUT", "/v1/**/{y}", 1⟩,
      ⟨.reject, "GET", "/v1/a/*:go", 2⟩]
  have hconflict : ((run [⟨.reject, "GET", "/v1/a/{x}", 0⟩,
      ⟨.keepFirst, "PUT", "/v1/**/{y}", 1⟩,
      ⟨.reject, "GET", "/v1/a/*:go", 2⟩]).outcome
        ⟨.keepFirst, "GET", "/v1/a/{z}", 3⟩).2 =
      .dropped "GET" "/v1/a/{z}" "/v1/a/{x}" := by
    decide +kernel
  refine ⟨hevent.trans (by decide +kernel), ?_, ?_⟩
  · apply hdropped ⟨.keepFirst, "GET", "/v1/a/{z}", 3⟩
    intro method pattern varCount index
    rw [hconflict]
    exact nofun
  · rw [horder _ (List.Perm.swap _ _ _)]
    decide +kernel

end Builder
end HttpRoutes
