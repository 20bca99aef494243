import HttpRoutes.Proofs.Router.Cut
import HttpRoutes.Proofs.Router.Registration

/-!
# Updating a trie is updating a map

What is bound in a trie is a map from shapes and slots to candidate lists, where
a place that no node or entry stands for has the empty list.  An update at one
place changes its list and no other one.

A pattern leads to the node of its shape, and a shape ends with the first `**`
of the pattern.  So two patterns have the same place exactly if they are equal
up to and including their first `**`; what stands behind it is of no account,
and what one of them has in common with the front of the other is not either.
-/

namespace HttpRoutes

/-- Patterns that are equal up to and including their first `**`. -/
def AgreeThroughRest (pattern other : List Element) : Prop :=
  pattern = other ∨
    ∃ front, .rest ∉ front ∧ front ++ [.rest] <+: pattern ∧
      front ++ [.rest] <+: other

theorem cutAfterRest_of_front {front pattern : List Element}
    (hfront : .rest ∉ front) (hpattern : front ++ [.rest] <+: pattern) :
    cutAfterRest pattern = front ++ [.rest] := by
  obtain ⟨tail, rfl⟩ := hpattern
  rw [List.append_assoc, cutAfterRest_append hfront, List.singleton_append,
    cutAfterRest_rest]

theorem exists_front_of_rest_mem {pattern : List Element}
    (hrest : .rest ∈ pattern) :
    ∃ front, .rest ∉ front ∧ front ++ [.rest] <+: pattern := by
  obtain ⟨front, tail, hsplit, hfront⟩ := List.eq_append_cons_of_mem hrest
  exact ⟨front, hfront, tail, by rw [hsplit, List.append_assoc]; rfl⟩

/-- Patterns have the same shape exactly if they agree through their first
`**`. -/
theorem cutAfterRest_eq_iff {pattern other : List Element} :
    cutAfterRest pattern = cutAfterRest other ↔
      AgreeThroughRest pattern other := by
  constructor
  · intro hcut
    by_cases hrest : .rest ∈ pattern
    · obtain ⟨front, hfront, hpattern⟩ := exists_front_of_rest_mem hrest
      rw [cutAfterRest_of_front hfront hpattern] at hcut
      have hrest' : .rest ∈ other := by
        by_contra hnot
        rw [cutAfterRest_of_not_mem hnot] at hcut
        exact hnot (hcut ▸ List.mem_append_right _ List.mem_cons_self)
      obtain ⟨front', hfront', hother⟩ := exists_front_of_rest_mem hrest'
      rw [cutAfterRest_of_front hfront' hother] at hcut
      exact .inr ⟨front, hfront, hpattern, hcut ▸ hother⟩
    · rw [cutAfterRest_of_not_mem hrest] at hcut
      have hrest' : .rest ∉ other := by
        intro hmem
        obtain ⟨front, hfront, hpattern⟩ := exists_front_of_rest_mem hmem
        rw [cutAfterRest_of_front hfront hpattern] at hcut
        exact hrest (hcut ▸ List.mem_append_right _ List.mem_cons_self)
      rw [cutAfterRest_of_not_mem hrest'] at hcut
      exact .inl hcut
  · intro hagree
    rcases hagree with rfl | ⟨front, hfront, hpattern, hother⟩
    · rfl
    · rw [cutAfterRest_of_front hfront hpattern,
        cutAfterRest_of_front hfront hother]

instance (pattern other : List Element) :
    Decidable (AgreeThroughRest pattern other) :=
  decidable_of_iff _ cutAfterRest_eq_iff

namespace Trie

/-- Binding one more route for a pattern, a method and a verb puts its number
behind the others at this place.  Whatever the trie, what is read for any
pattern, method and verb is otherwise as it was. -/
theorem routesAt_push (trie : Trie) (pattern other : List Element)
    (method method' : String) (verb verb' : Option String) (index : Nat) :
    (trie.insertPath
          (Candidates.update ⟨method, verb⟩ fun routes => routes ++ [index])
          pattern).routesOf other ⟨method', verb'⟩ =
      if AgreeThroughRest pattern other ∧ method = method' ∧ verb = verb' then
        trie.routesOf other ⟨method', verb'⟩ ++ [index]
      else
        trie.routesOf other ⟨method', verb'⟩ := by
  rw [routesOf_eq, routesOf_eq, insertPath_eq, routesAt_update]
  simp only [cutAfterRest_eq_iff, Slot.mk.injEq]
  split
  next hsame =>
    obtain ⟨hagree, rfl, rfl⟩ := hsame
    rw [cutAfterRest_eq_iff.mpr hagree]
  next => rfl

example :
    let pushed := empty.insertPath
      (Candidates.update ⟨"GET", none⟩ fun routes => routes ++ [7])
      [.literal "a", .rest, .any]
    pushed.routesOf [.literal "a", .rest] ⟨"GET", none⟩ = [7] ∧
      pushed.routesOf [.literal "a"] ⟨"GET", none⟩ = [] := by
  decide +kernel

end Trie
end HttpRoutes
