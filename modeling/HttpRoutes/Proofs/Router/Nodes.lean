import HttpRoutes.Proofs.Router.Registration
import Mathlib.Data.List.Nodup

/-!
# All that a trie holds

A path can be followed through a trie without seeing everything: an entry behind
another one under the same element or slot would be passed over.  This module
lists all nodes and all candidate lists of a trie as they stand in it.  In a
trie whose nodes have each element and each slot only once, which updates keep,
the nodes are those that paths lead to and the candidate lists are those that
are found for a path and a slot.

An update makes the nodes on its path and no others.
-/

namespace HttpRoutes

namespace Candidates

theorem mem_map_fst_update {slot other : Slot} {change : List Nat → List Nat}
    {table : Candidates} :
    other ∈ (table.update slot change).map Prod.fst ↔
      other = slot ∨ other ∈ table.map Prod.fst := by
  induction table with
  | nil => simp [update]
  | cons entry rest ih =>
      by_cases hslot : entry.1 = slot
      · simp [update, hslot]
      · have hmem : other ∈ (update slot change (entry :: rest)).map Prod.fst ↔
            other = entry.1 ∨ other ∈ (update slot change rest).map Prod.fst := by
          simp [update, hslot]
        rw [hmem, ih, List.map_cons, List.mem_cons, or_left_comm]

theorem nodup_update {slot : Slot} {change : List Nat → List Nat}
    {table : Candidates} (hdistinct : (table.map Prod.fst).Nodup) :
    ((table.update slot change).map Prod.fst).Nodup := by
  induction table with
  | nil => simp [update]
  | cons entry rest ih =>
      rw [List.map_cons, List.nodup_cons] at hdistinct
      by_cases hslot : entry.1 = slot
      · have hslots : (update slot change (entry :: rest)).map Prod.fst =
            entry.1 :: rest.map Prod.fst := by
          simp [update, hslot]
        rw [hslots, List.nodup_cons]
        exact hdistinct
      · have hslots : (update slot change (entry :: rest)).map Prod.fst =
            entry.1 :: (update slot change rest).map Prod.fst := by
          simp [update, hslot]
        have hnew : entry.1 ∉ (update slot change rest).map Prod.fst := by
          rw [mem_map_fst_update, not_or]
          exact ⟨hslot, hdistinct.1⟩
        rw [hslots, List.nodup_cons]
        exact ⟨hnew, ih hdistinct.2⟩

theorem routesFor_eq_nil {slot : Slot} {table : Candidates}
    (hnone : slot ∉ table.map Prod.fst) :
    Candidates.routesFor slot table = [] := by
  induction table with
  | nil => rfl
  | cons entry rest ih =>
      rw [List.map_cons, List.mem_cons, not_or] at hnone
      rw [Candidates.routesFor, if_neg (Ne.symm hnone.1), ih hnone.2]

theorem routesFor_of_mem {slot : Slot} {candidates : List Nat}
    {table : Candidates} (hdistinct : (table.map Prod.fst).Nodup)
    (hmem : (slot, candidates) ∈ table) :
    Candidates.routesFor slot table = candidates := by
  induction table with
  | nil => contradiction
  | cons entry rest ih =>
      rw [List.map_cons, List.nodup_cons] at hdistinct
      rw [Candidates.routesFor]
      rcases List.mem_cons.mp hmem with heq | hlater
      · subst entry
        rw [if_pos rfl]
      · have hne : entry.1 ≠ slot := by
          intro heq
          apply hdistinct.1
          rw [heq]
          exact List.mem_map.mpr ⟨(slot, candidates), hlater, rfl⟩
        rw [if_neg hne]
        exact ih hdistinct.2 hlater

theorem mem_of_routesFor_ne_nil {slot : Slot} {table : Candidates}
    (hsome : Candidates.routesFor slot table ≠ []) :
    (slot, Candidates.routesFor slot table) ∈ table := by
  induction table with
  | nil => contradiction
  | cons entry rest ih =>
      rw [Candidates.routesFor] at hsome ⊢
      split at hsome
      next heq =>
        rw [if_pos heq, ← heq]
        exact List.mem_cons_self
      next hne =>
        rw [if_neg hne]
        exact List.mem_cons_of_mem _ (ih hsome)

end Candidates

/-! ## Nodes -/

mutual

/-- All nodes, each with the path that leads there. -/
def Trie.nodes : Trie → List (List Element × Trie)
  | .node bound children => ([], .node bound children) :: children.nodes

def Branches.nodes : Branches → List (List Element × Trie)
  | .nil => []
  | .cons element child others =>
    (child.nodes.map fun entry => (element :: entry.1, entry.2)) ++ others.nodes

end

mutual

/-- No node has two children under one element. -/
def Trie.DistinctChildren : Trie → Prop
  | .node _ children => children.Distinct

def Branches.Distinct : Branches → Prop
  | .nil => True
  | .cons element child others =>
    others.child? element = none ∧ child.DistinctChildren ∧ others.Distinct

end

namespace Branches

theorem Distinct.child {element : Element} {child : Trie} {branches : Branches}
    (hdistinct : branches.Distinct)
    (hchild : branches.child? element = some child) :
    child.DistinctChildren := by
  match branches with
  | .nil => contradiction
  | .cons first old others =>
      obtain ⟨_, hold, hothers⟩ := hdistinct
      rw [child?] at hchild
      split at hchild
      · exact Option.some.inj hchild ▸ hold
      · exact Distinct.child hothers hchild

theorem Distinct.put {element : Element} {child : Trie} {branches : Branches}
    (hdistinct : branches.Distinct) (hchild : child.DistinctChildren) :
    (branches.put element child).Distinct := by
  match branches with
  | .nil => exact ⟨rfl, hchild, trivial⟩
  | .cons first old others =>
      obtain ⟨hnone, hold, hothers⟩ := hdistinct
      rw [Branches.put]
      split
      · exact ⟨hnone, hchild, hothers⟩
      next hne =>
        refine ⟨?_, hold, Distinct.put hothers hchild⟩
        rw [child?_put, if_neg (Ne.symm hne)]
        exact hnone

theorem mem_nodes_iff {path : List Element} {node : Trie} {branches : Branches}
    (hdistinct : branches.Distinct) :
    (path, node) ∈ branches.nodes ↔
      ∃ element rest child, path = element :: rest ∧
        branches.child? element = some child ∧ (rest, node) ∈ child.nodes := by
  match branches with
  | .nil => simp [nodes, child?]
  | .cons first old others =>
      obtain ⟨hnone, _, hothers⟩ := hdistinct
      rw [nodes, List.mem_append, List.mem_map, mem_nodes_iff hothers]
      constructor
      · intro hmem
        rcases hmem with ⟨⟨rest, below⟩, hmem, heq⟩ |
          ⟨element, rest, child, rfl, hchild, hmem⟩
        · obtain ⟨rfl, rfl⟩ := Prod.mk.inj heq
          exact ⟨first, rest, old, rfl, by simp [child?], hmem⟩
        · have hne : first ≠ element := by
            intro heq
            rw [← heq, hnone] at hchild
            contradiction
          exact ⟨element, rest, child, rfl, by simp [child?, hne, hchild], hmem⟩
      · intro hmem
        obtain ⟨element, rest, child, rfl, hchild, hmem⟩ := hmem
        rw [child?] at hchild
        split at hchild
        next heq =>
          obtain rfl := Option.some.inj hchild
          exact .inl ⟨(rest, node), hmem, by rw [heq]⟩
        next => exact .inr ⟨element, rest, child, rfl, hchild, hmem⟩

end Branches

namespace Trie

theorem distinctChildren_empty : empty.DistinctChildren := trivial

theorem DistinctChildren.child {element : Element} {trie child : Trie}
    (hdistinct : trie.DistinctChildren)
    (hchild : trie.child? element = some child) : child.DistinctChildren := by
  obtain ⟨bound, children⟩ := trie
  exact Branches.Distinct.child hdistinct hchild

theorem DistinctChildren.find {path : List Element} {trie node : Trie}
    (hdistinct : trie.DistinctChildren) (hfind : trie.find? path = some node) :
    node.DistinctChildren := by
  induction path generalizing trie with
  | nil => exact Option.some.inj hfind ▸ hdistinct
  | cons element path ih =>
      obtain ⟨child, hchild, hbelow⟩ := Option.bind_eq_some_iff.mp hfind
      exact ih (hdistinct.child hchild) hbelow

theorem DistinctChildren.update {trie : Trie}
    (hdistinct : trie.DistinctChildren) (change : Candidates → Candidates)
    (path : List Element) : (trie.update change path).DistinctChildren := by
  induction path generalizing trie with
  | nil =>
      obtain ⟨bound, children⟩ := trie
      exact hdistinct
  | cons element path ih =>
      obtain ⟨bound, children⟩ := trie
      apply Branches.Distinct.put hdistinct
      apply ih
      cases hchild : children.child? element with
      | none => exact distinctChildren_empty
      | some child => exact Branches.Distinct.child hdistinct hchild

theorem mem_nodes_iff {path : List Element} {trie node : Trie}
    (hdistinct : trie.DistinctChildren) :
    (path, node) ∈ trie.nodes ↔ trie.find? path = some node := by
  induction path generalizing trie with
  | nil =>
      obtain ⟨bound, children⟩ := trie
      rw [nodes, List.mem_cons, Branches.mem_nodes_iff hdistinct]
      simp [find?, eq_comm]
  | cons element path ih =>
      obtain ⟨bound, children⟩ := trie
      rw [nodes, List.mem_cons, Branches.mem_nodes_iff hdistinct, find?,
        Option.bind_eq_some_iff]
      constructor
      · intro hmem
        rcases hmem with heq | ⟨_, _, child, heq, hchild, hmem⟩
        · simp at heq
        · obtain ⟨rfl, rfl⟩ := List.cons.inj heq
          have hbelow : child.DistinctChildren :=
            Branches.Distinct.child hdistinct hchild
          exact ⟨child, hchild, (ih hbelow).mp hmem⟩
      · intro hfind
        obtain ⟨child, hchild, hfind⟩ := hfind
        have hbelow : child.DistinctChildren :=
          Branches.Distinct.child hdistinct hchild
        exact .inr ⟨element, path, child, rfl, hchild, (ih hbelow).mpr hfind⟩

end Trie

mutual

theorem Trie.nodup_paths {trie : Trie} (hdistinct : trie.DistinctChildren) :
    (trie.nodes.map Prod.fst).Nodup := by
  match trie with
  | .node bound children =>
      rw [Trie.nodes, List.map_cons, List.nodup_cons]
      refine ⟨?_, Branches.nodup_paths hdistinct⟩
      intro hmem
      obtain ⟨⟨path, node⟩, hmem, heq⟩ := List.mem_map.mp hmem
      obtain ⟨element, rest, child, hpath, _⟩ :=
        (Branches.mem_nodes_iff hdistinct).mp hmem
      exact List.cons_ne_nil _ _ (hpath.symm.trans heq)

theorem Branches.nodup_paths {branches : Branches}
    (hdistinct : branches.Distinct) : (branches.nodes.map Prod.fst).Nodup := by
  match branches with
  | .nil => exact List.nodup_nil
  | .cons first old others =>
      obtain ⟨hnone, hold, hothers⟩ := hdistinct
      have hpaths : ((old.nodes.map fun entry =>
            (first :: entry.1, entry.2)).map Prod.fst) =
          (old.nodes.map Prod.fst).map (first :: ·) := by
        simp
      rw [Branches.nodes, List.map_append, hpaths, List.nodup_append]
      refine ⟨?_, Branches.nodup_paths hothers, ?_⟩
      · apply (Trie.nodup_paths hold).map
        exact fun _ _ => List.tail_eq_of_cons_eq
      · intro path hpath other hother heq
        obtain ⟨rest, _, rfl⟩ := List.mem_map.mp hpath
        obtain ⟨⟨path, node⟩, hmem, rfl⟩ := List.mem_map.mp hother
        obtain ⟨element, tail, child, rfl, hchild, _⟩ :=
          (Branches.mem_nodes_iff hothers).mp hmem
        obtain ⟨rfl, _⟩ := List.cons.inj heq
        rw [hnone] at hchild
        contradiction

end

namespace Trie

theorem find?_append (front tail : List Element) (trie : Trie) :
    trie.find? (front ++ tail) = (trie.find? front).bind (find? tail) := by
  induction front generalizing trie with
  | nil => rfl
  | cons element front ih =>
      rw [List.cons_append, find?, find?, Option.bind_assoc]
      congr 1
      exact funext ih

/-- An update makes the nodes on its path and no others. -/
theorem isSome_find?_update (change : Candidates → Candidates)
    (path other : List Element) (trie : Trie) :
    ((trie.update change path).find? other).isSome ↔
      (trie.find? other).isSome ∨ other <+: path := by
  induction path generalizing other trie with
  | nil =>
      obtain ⟨bound, children⟩ := trie
      cases other with
      | nil => simp [find?]
      | cons element other =>
          rw [List.prefix_nil, or_iff_left (by simp)]
          rfl
  | cons element path ih =>
      obtain ⟨bound, children⟩ := trie
      cases other with
      | nil => simp [find?]
      | cons element' other =>
          rw [update, find?, find?, child?, child?, Branches.child?_put,
            List.cons_prefix_cons]
          by_cases helement : element = element'
          · subst element'
            rw [if_pos rfl, Option.bind_some, ih]
            cases children.child? element with
            | none =>
                have hnil : (empty.find? other).isSome → other <+: path := by
                  cases other with
                  | nil => simp
                  | cons first other => simp [find?, empty, child?, Branches.child?]
                simp
                exact hnil
            | some child => simp
          · simp [helement, Ne.symm helement]

/-! ## Candidate lists -/

/-- At every node, no slot has two entries. -/
def DistinctSlots (trie : Trie) : Prop :=
  ∀ path, ((trie.boundAt path).map Prod.fst).Nodup

theorem boundAt_of_find? {path : List Element} {trie node : Trie}
    (hfind : trie.find? path = some node) : trie.boundAt path = node.bound := by
  rw [boundAt, hfind]
  rfl

theorem distinctSlots_empty : empty.DistinctSlots := by
  intro path
  cases path <;> simp [boundAt, find?, empty, bound, child?, Branches.child?]

theorem DistinctSlots.update {trie : Trie} (hdistinct : trie.DistinctSlots)
    (slot : Slot) (change : List Nat → List Nat) (path : List Element) :
    (trie.update (Candidates.update slot change) path).DistinctSlots := by
  intro other
  rw [boundAt_update]
  split
  · exact Candidates.nodup_update (hdistinct path)
  · exact hdistinct other

/-- All candidate lists, each with the path and the slot that it stands for. -/
def lists (trie : Trie) : List ((List Element × Slot) × List Nat) :=
  trie.nodes.flatMap fun entry =>
    entry.2.bound.map fun binding => ((entry.1, binding.1), binding.2)

theorem mem_lists_iff {path : List Element} {slot : Slot}
    {candidates : List Nat} {trie : Trie}
    (hdistinct : trie.DistinctChildren) :
    ((path, slot), candidates) ∈ trie.lists ↔
      ∃ node, trie.find? path = some node ∧ (slot, candidates) ∈ node.bound := by
  unfold lists
  rw [List.mem_flatMap]
  constructor
  · intro hmem
    obtain ⟨⟨other, node⟩, hnode, hmem⟩ := hmem
    obtain ⟨⟨slot', candidates'⟩, hbound, heq⟩ := List.mem_map.mp hmem
    obtain ⟨⟨rfl, rfl⟩, rfl⟩ : (other = path ∧ slot' = slot) ∧
        candidates' = candidates := by
      simpa using heq
    exact ⟨node, (mem_nodes_iff hdistinct).mp hnode, hbound⟩
  · intro hfind
    obtain ⟨node, hfind, hbound⟩ := hfind
    exact ⟨(path, node), (mem_nodes_iff hdistinct).mpr hfind,
      List.mem_map.mpr ⟨(slot, candidates), hbound, rfl⟩⟩

theorem routesAt_of_mem_lists {path : List Element} {slot : Slot}
    {candidates : List Nat} {trie : Trie} (hdistinct : trie.DistinctChildren)
    (hslots : trie.DistinctSlots)
    (hmem : ((path, slot), candidates) ∈ trie.lists) :
    trie.routesAt path slot = candidates := by
  obtain ⟨node, hfind, hbound⟩ := (mem_lists_iff hdistinct).mp hmem
  have hnode := hslots path
  rw [boundAt_of_find? hfind] at hnode
  rw [routesAt_eq, boundAt_of_find? hfind]
  exact Candidates.routesFor_of_mem hnode hbound

theorem mem_lists_of_routesAt_ne_nil {path : List Element} {slot : Slot}
    {trie : Trie} (hdistinct : trie.DistinctChildren)
    (hsome : trie.routesAt path slot ≠ []) :
    ((path, slot), trie.routesAt path slot) ∈ trie.lists := by
  rw [mem_lists_iff hdistinct]
  cases hfind : trie.find? path with
  | none => simp [routesAt, hfind] at hsome
  | some node =>
      rw [routesAt_eq, boundAt_of_find? hfind] at hsome ⊢
      exact ⟨node, rfl, Candidates.mem_of_routesFor_ne_nil hsome⟩

theorem nodup_places {trie : Trie} (hdistinct : trie.DistinctChildren)
    (hslots : trie.DistinctSlots) : (trie.lists.map Prod.fst).Nodup := by
  unfold lists
  rw [List.map_flatMap, List.nodup_flatMap]
  constructor
  · intro entry hmem
    have hfind := (mem_nodes_iff hdistinct).mp hmem
    have hnode := hslots entry.1
    rw [boundAt_of_find? hfind] at hnode
    have hplaces : (entry.2.bound.map fun binding =>
          ((entry.1, binding.1), binding.2)).map Prod.fst =
        (entry.2.bound.map Prod.fst).map fun slot => (entry.1, slot) := by
      simp
    rw [hplaces]
    exact hnode.map fun _ _ heq => (Prod.mk.inj heq).2
  · have hpaths := nodup_paths hdistinct
    rw [List.Nodup, List.pairwise_map] at hpaths
    apply hpaths.imp
    intro first second hne place hfirst hsecond
    apply hne
    simp only [List.map_map, List.mem_map, Function.comp_apply] at hfirst hsecond
    obtain ⟨_, _, rfl⟩ := hfirst
    obtain ⟨_, _, heq⟩ := hsecond
    exact (congrArg Prod.fst heq).symm

end Trie
end HttpRoutes
