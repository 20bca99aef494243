import HttpRoutes.Proofs.Router.Capture
import HttpRoutes.Proofs.Router.Nodes

/-!
# Which methods a path takes

The methods for which a path would be found are collected from all nodes where
the request can end, while a request for one method stops at the first node that
has a route for it.  Both go through the same nodes, and a node has an entry for
each of its methods and verbs only once.  So a method is collected exactly if a
request for it is found.
-/

namespace HttpRoutes

namespace Candidates

/-- If no slot has two entries, a method is listed for a verb exactly if its
slot has routes. -/
theorem mem_methods_iff {verb : Option String} {table : Candidates}
    (hdistinct : (table.map Prod.fst).Nodup) {method : String} :
    method ∈ table.methods verb ↔
      Candidates.routesFor ⟨method, verb⟩ table ≠ [] := by
  induction table with
  | nil => simp [methods]
  | cons entry rest ih =>
      rw [List.map_cons, List.nodup_cons] at hdistinct
      have hrest := ih hdistinct.2
      by_cases hslot : entry.1 = ⟨method, verb⟩
      · have hlater : Candidates.routesFor ⟨method, verb⟩ rest = [] :=
          routesFor_eq_nil (hslot ▸ hdistinct.1)
        have hnot : method ∉ methods verb rest := by
          rw [hrest, hlater]
          simp
        cases hroutes : entry.2 with
        | nil => simp [methods, Candidates.routesFor, hslot, hroutes, hnot]
        | cons index indices =>
            simp [methods, Candidates.routesFor, hslot, hroutes]
      · have hmethod : entry.1.verb = verb → method ≠ entry.1.method := by
          rintro rfl rfl
          exact hslot rfl
        rw [Candidates.routesFor, if_neg hslot, ← hrest, methods]
        split
        next hverb =>
          simp only [Bool.and_eq_true, decide_eq_true_eq] at hverb
          rw [List.mem_cons, or_iff_right (hmethod hverb.1)]
        next => rfl

end Candidates

namespace Trie

theorem map_snd_under (element : Element)
    (below : Trie → List (List Element × Trie)) (trie : Trie) :
    (trie.under element below).map Prod.snd =
      (trie.child? element).elim [] fun child => (below child).map Prod.snd := by
  unfold under
  cases trie.child? element <;> simp

theorem visits_eq_map_endings (segments : List String) (trie : Trie) :
    trie.visits segments = (trie.endings segments).map Prod.snd := by
  have hrest (trie : Trie) :
      (trie.under .rest fun node => [([], node)]).map Prod.snd =
        (trie.child? .rest).toList := by
    rw [map_snd_under]
    cases trie.child? .rest <;> rfl
  induction segments generalizing trie with
  | nil => rw [visits, endings, List.map_cons, hrest]
  | cons segment segments ih =>
      have hvisits : visits segments = fun child =>
          (child.endings segments).map Prod.snd :=
        funext ih
      rw [visits, endings, List.map_append, List.map_append, hrest,
        map_snd_under, hvisits, List.append_assoc]
      by_cases hempty : segment = ""
      · simp [hempty]
      · simp [hempty, map_snd_under]

theorem mem_visits_iff {segments : List String} {trie node : Trie} :
    node ∈ trie.visits segments ↔
      ∃ path, Fits path segments ∧ trie.find? path = some node := by
  rw [visits_eq_map_endings, List.mem_map]
  constructor
  · rintro ⟨⟨path, other⟩, hmem, rfl⟩
    exact ⟨path, mem_endings.mp hmem⟩
  · rintro ⟨path, hending⟩
    exact ⟨(path, node), mem_endings.mpr hending, rfl⟩

end Trie

namespace Matcher

variable {α : Type}

/-- A request is found unless it is answered with `notFound`. -/
def Finds (table : Matcher α) (method path : String) : Prop :=
  ∀ name text, table.lookup method path ≠ .error (.notFound name text)

theorem lookup_eq_of_select?_eq {table other : Matcher α}
    {method path : String}
    (hselect : table.select? method path = other.select? method path) :
    table.lookup method path = other.lookup method path := by
  unfold lookup
  rw [hselect]

theorem nodup_insertOnce {text : String} {texts : List String}
    (hnodup : texts.Nodup) : (insertOnce text texts).Nodup := by
  unfold insertOnce
  split
  next => exact hnodup
  next hnew =>
    rw [← List.concat_eq_append]
    exact hnodup.concat hnew

theorem nodup_foldl_insertOnce {texts found : List String}
    (hnodup : found.Nodup) :
    (texts.foldl (fun found text => insertOnce text found) found).Nodup := by
  induction texts generalizing found with
  | nil => exact hnodup
  | cons first texts ih => exact ih (nodup_insertOnce hnodup)

theorem mem_foldl_insertOnce_iff {text : String} {texts found : List String} :
    text ∈ texts.foldl (fun found text => insertOnce text found) found ↔
      text ∈ found ∨ text ∈ texts := by
  induction texts generalizing found with
  | nil => simp
  | cons first texts ih =>
      rw [List.foldl_cons, ih, Builder.mem_insertOnce_iff, List.mem_cons,
        or_assoc]

/-- The methods of a path come in the order of their names, each once. -/
theorem pairwise_lt_allowedMethods (table : Matcher α) (path : String) :
    (table.allowedMethods path).Pairwise fun first second => first < second := by
  have hle : (table.allowedMethods path).Pairwise
      fun first second => decide (first ≤ second) = true := by
    apply List.pairwise_mergeSort
    · intro a b c hab hbc
      rw [decide_eq_true_eq] at hab hbc ⊢
      exact String.le_trans hab hbc
    · intro a b
      simpa using String.le_total a b
  have hnodup : (table.allowedMethods path).Nodup :=
    (List.mergeSort_perm _ _).nodup_iff.mpr
      (nodup_foldl_insertOnce List.nodup_nil)
  -- Sorted, and no name twice.
  apply (hle.and hnodup).imp
  intro first second hboth
  have hfirst : first ≤ second := of_decide_eq_true hboth.1
  apply String.not_le.mp
  intro hsecond
  exact hboth.2 (String.le_antisymm hfirst hsecond)

theorem nodup_allowedMethods (table : Matcher α) (path : String) :
    (table.allowedMethods path).Nodup :=
  (table.pairwise_lt_allowedMethods path).imp String.ne_of_lt

/-- The listed methods are determined by which methods are listed. -/
theorem allowedMethods_eq_of_mem_iff {table other : Matcher α} {path : String}
    (hsame : ∀ method, method ∈ table.allowedMethods path ↔
      method ∈ other.allowedMethods path) :
    table.allowedMethods path = other.allowedMethods path := by
  have hperm : (table.allowedMethods path).Perm (other.allowedMethods path) :=
    (List.perm_ext_iff_of_nodup (table.nodup_allowedMethods path)
      (other.nodup_allowedMethods path)).mpr hsame
  exact List.Perm.eq_of_pairwise
    (fun _ _ _ _ hlt hgt => absurd hgt (String.lt_asymm hlt))
    (table.pairwise_lt_allowedMethods path)
    (other.pairwise_lt_allowedMethods path) hperm

theorem mem_methodsAt_iff {table : Matcher α} {verb : Option String}
    {segments : List String} {method : String} :
    method ∈ table.methodsAt verb segments ↔
      ∃ path node, Fits path segments ∧ table.trie.find? path = some node ∧
        method ∈ node.bound.methods verb := by
  rw [methodsAt, List.mem_flatMap]
  constructor
  · rintro ⟨node, hvisit, hmethod⟩
    obtain ⟨path, hfits, hfind⟩ := Trie.mem_visits_iff.mp hvisit
    exact ⟨path, node, hfits, hfind, hmethod⟩
  · rintro ⟨path, node, hfits, hfind, hmethod⟩
    exact ⟨node, Trie.mem_visits_iff.mpr ⟨path, hfits, hfind⟩, hmethod⟩

theorem mem_allowedMethods_iff {table : Matcher α} {method path : String} :
    method ∈ table.allowedMethods path ↔
      (∃ stripped verb,
        splitVerb table.verbs (requestSegments path) = some (stripped, verb) ∧
          method ∈ table.methodsAt (some verb) stripped) ∨
      method ∈ table.methodsAt none (requestSegments path) := by
  rw [allowedMethods, List.mem_mergeSort, mem_foldl_insertOnce_iff,
    List.mem_append, or_iff_right (List.not_mem_nil)]
  apply or_congr_left
  cases splitVerb table.verbs (requestSegments path) with
  | none => simp
  | some split => simp [Prod.ext_iff, and_assoc]

end Matcher

namespace Builder

variable {α : Type}

theorem distinctSlots_add {builder : Builder α}
    (hdistinct : builder.trie.DistinctSlots) (route : Route α) :
    (builder.add route).trie.DistinctSlots := by
  rw [trie_add]
  exact hdistinct.update _ _ _

theorem distinctSlots_run (requests : List (Attempt α)) :
    (run requests).trie.DistinctSlots := by
  refine List.foldlRecOn
    (motive := fun builder => builder.trie.DistinctSlots) requests attempt ?_ ?_
  · exact Trie.distinctSlots_empty
  · intro builder hdistinct request _
    rcases builder.attempt_cases request with heq | ⟨parsed, _, _, _, heq⟩
    · rw [heq]
      exact hdistinct
    · rw [heq]
      exact distinctSlots_add hdistinct _

/-- A method is collected at the nodes where a request can end exactly if some
route of its slot fits the request. -/
theorem Consistent.mem_methodsAt_iff {builder : Builder α}
    (hgood : builder.Consistent) (hslots : builder.trie.DistinctSlots)
    {method : String} {verb : Option String} {segments : List String} :
    method ∈ builder.build.methodsAt verb segments ↔
      builder.build.find? ⟨method, verb⟩ segments ≠ none := by
  rw [hgood.find?_eq_choose?, Matcher.mem_methodsAt_iff]
  constructor
  · rintro ⟨path, node, hfits, hfind, hmethod⟩
    -- A slot is listed once at a node, so its method stands there only for
    -- routes that are bound.
    have hbound := Trie.boundAt_of_find? hfind
    rw [Candidates.mem_methods_iff (hbound ▸ hslots path)] at hmethod
    obtain ⟨index, hindex⟩ := List.exists_mem_of_ne_nil _ hmethod
    obtain ⟨route, hroute, rfl, hslot⟩ :=
      (hgood.routesFor_of_find? hfind).mp hindex
    have hfitting : route ∈
        RouteList.fitting ⟨method, verb⟩ segments builder.routes :=
      RouteList.mem_fitting_iff.mpr
        ⟨List.mem_of_getElem? hroute, hslot, hfits⟩
    exact RouteList.choose?_ne_none hfitting
  · intro hchoose
    obtain ⟨selection, hsome⟩ := Option.ne_none_iff_exists'.mp hchoose
    have hfitting := (RouteList.choose?_eq_some hsome).1
    obtain ⟨hmem, hslot, hfits⟩ := RouteList.mem_fitting_iff.mp hfitting
    obtain ⟨index, hindex⟩ := List.getElem?_of_mem hmem
    obtain ⟨node, hfind, hcandidate⟩ := hgood.exists_node hindex
    have hbound := Trie.boundAt_of_find? hfind
    refine ⟨selection.route.shape, node, hfits, hfind, ?_⟩
    rw [Candidates.mem_methods_iff (hbound ▸ hslots selection.route.shape),
      ← hslot]
    exact List.ne_nil_of_mem hcandidate

theorem Consistent.mem_allowedMethods_iff {builder : Builder α}
    (hgood : builder.Consistent) (hslots : builder.trie.DistinctSlots)
    {method path : String} :
    method ∈ builder.build.allowedMethods path ↔
      builder.build.select? method path ≠ none := by
  rw [Matcher.mem_allowedMethods_iff, Matcher.select?, ne_eq,
    Option.or_eq_none_iff, not_and_or, hgood.mem_methodsAt_iff hslots]
  apply or_congr_left
  cases splitVerb builder.build.verbs (requestSegments path) with
  | none => simp
  | some split => simp [hgood.mem_methodsAt_iff hslots, Prod.ext_iff, and_assoc]

theorem Consistent.finds_iff {builder : Builder α} (hgood : builder.Consistent)
    {method path : String} :
    builder.build.Finds method path ↔
      builder.build.select? method path ≠ none := by
  rw [hgood.select?_eq]
  constructor
  · intro hfinds hnone
    apply hfinds method path
    rw [hgood.lookup_eq, hnone]
  · exact hgood.lookup_ne_notFound

end Builder
end HttpRoutes
