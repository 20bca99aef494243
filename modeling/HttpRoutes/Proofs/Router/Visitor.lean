import HttpRoutes.Proofs.Router.Methods
import HttpRoutes.Proofs.Router.Update

/-!
# Searching with a visitor

A search asks a visitor at one node after the other until it answers.  A visitor
may keep a state between the nodes, and what it answers may depend on it, so a
search can be told from another one by when it asks.  This module has the search
for such visitors.  The search for an answer that depends on the node alone is
one case of it, and listing the nodes where a request can end is another.

Whatever the visitor is, the nodes it is asked at are determined before: they
are the nodes whose paths fit the segments, in the order of the ranks of their
paths, up to the first one where it answers.
-/

namespace HttpRoutes

section Answers

variable {m : Type → Type} [Monad m] {α β : Type}

/-- The first answer if there is one, or else the next.  The next is not asked
for after an answer. -/
def firstAnswer (first next : m (Option β)) : m (Option β) := do
  match ← first with
  | some answer => pure (some answer)
  | none => next

variable [LawfulMonad m]

theorem findSomeM?_append (ask : α → m (Option β)) (front tail : List α) :
    (front ++ tail).findSomeM? ask =
      firstAnswer (front.findSomeM? ask) (tail.findSomeM? ask) := by
  unfold firstAnswer
  induction front with
  | nil => rw [List.nil_append, List.findSomeM?_nil, pure_bind]
  | cons first front ih =>
      rw [List.cons_append, List.findSomeM?_cons, List.findSomeM?_cons,
        bind_assoc]
      congr 1
      funext answer
      cases answer with
      | none => exact ih
      | some answer => rw [pure_bind]

theorem findSomeM?_singleton (ask : α → m (Option β)) (node : α) :
    [node].findSomeM? ask = ask node := by
  rw [List.findSomeM?_cons, List.findSomeM?_nil]
  conv => rhs; rw [← bind_pure (ask node)]
  congr 1
  funext answer
  cases answer <;> rfl

end Answers

namespace Trie

/-! ## The search -/

section Search

variable {m : Type → Type} [Monad m] {β : Type}

/-- Visit the child under an element, if there is one. -/
def visitChild (element : Element) (visit : Trie → m (Option β))
    (trie : Trie) : m (Option β) :=
  match trie.child? element with
  | none => pure none
  | some child => visit child

/-- A search by a visitor that may do more than answer. -/
def searchM (visitor : Trie → m (Option β)) :
    List String → Trie → m (Option β)
  | [], trie => firstAnswer (visitor trie) (trie.visitChild .rest visitor)
  | segment :: segments, trie =>
    firstAnswer (trie.visitChild (.literal segment) (searchM visitor segments))
      (firstAnswer
        (if segment = "" then pure none
          else trie.visitChild .any (searchM visitor segments))
        (trie.visitChild .rest visitor))

theorem visitChild_findSomeM? (element : Element) (below : Trie → List Trie)
    (visitor : Trie → m (Option β)) (trie : Trie) :
    trie.visitChild element (fun child => (below child).findSomeM? visitor) =
      ((trie.child? element).elim [] below).findSomeM? visitor := by
  unfold visitChild
  cases trie.child? element <;> rfl

variable [LawfulMonad m]

theorem visitChild_eq_findSomeM? (element : Element)
    (visitor : Trie → m (Option β)) (trie : Trie) :
    trie.visitChild element visitor =
      (trie.child? element).toList.findSomeM? visitor := by
  unfold visitChild
  cases trie.child? element with
  | none => rfl
  | some child => exact (findSomeM?_singleton visitor child).symm

/-- A search asks along the list of nodes where a request can end. -/
theorem searchM_eq_findSomeM? (visitor : Trie → m (Option β))
    (segments : List String) (trie : Trie) :
    trie.searchM visitor segments =
      (trie.visits segments).findSomeM? visitor := by
  induction segments generalizing trie with
  | nil =>
      rw [searchM, visits, List.findSomeM?_cons, visitChild_eq_findSomeM?]
      rfl
  | cons segment segments ih =>
      have hbelow : searchM visitor segments = fun child =>
          (visits segments child).findSomeM? visitor :=
        funext ih
      rw [searchM, visits, List.append_assoc, findSomeM?_append,
        findSomeM?_append, hbelow, visitChild_findSomeM?,
        visitChild_findSomeM?, visitChild_eq_findSomeM?]
      congr 2
      split <;> rfl

end Search

theorem search_eq_searchM {β : Type} (accept : Trie → Option β)
    (segments : List String) (trie : Trie) :
    trie.search accept segments =
      Id.run (trie.searchM (fun node => pure (accept node)) segments) := by
  rw [searchM_eq_findSomeM?, List.findSomeM?_pure, Id.run_pure,
    search_eq_findSome?, visits_eq_map_endings, List.findSome?_map]
  rfl

/-! ## What a visitor is asked -/

section Asks

variable {σ β : Type}

/-- Asking at nodes in turn until the visitor answers: at which of them it is
asked, what it answers in the end, and how this changes its state. -/
inductive Asks (visitor : Trie → StateM σ (Option β)) :
    List Trie → σ → List Trie → Option β → σ → Prop where
  | exhausted {state : σ} : Asks visitor [] state [] none state
  | answered {node : Trie} {later : List Trie} {state last : σ} {answer : β}
      (hanswer : (visitor node).run state = (some answer, last)) :
      Asks visitor (node :: later) state [node] (some answer) last
  | passed {node : Trie} {later asked : List Trie} {state next last : σ}
      {answer : Option β} (hnone : (visitor node).run state = (none, next))
      (hlater : Asks visitor later next asked answer last) :
      Asks visitor (node :: later) state (node :: asked) answer last

theorem exists_asks (visitor : Trie → StateM σ (Option β)) (nodes : List Trie)
    (state : σ) :
    ∃ asked answer last, Asks visitor nodes state asked answer last := by
  induction nodes generalizing state with
  | nil => exact ⟨[], none, state, .exhausted⟩
  | cons node later ih =>
      cases hask : (visitor node).run state with
      | mk answer next =>
          cases answer with
          | some answer => exact ⟨[node], some answer, next, .answered hask⟩
          | none =>
              obtain ⟨asked, answer, last, hlater⟩ := ih next
              exact ⟨node :: asked, answer, last, .passed hask hlater⟩

theorem Asks.run_findSomeM? {visitor : Trie → StateM σ (Option β)}
    {nodes asked : List Trie} {state last : σ} {answer : Option β}
    (hasks : Asks visitor nodes state asked answer last) :
    (nodes.findSomeM? visitor).run state = (answer, last) := by
  induction hasks with
  | exhausted => rfl
  | answered hanswer =>
      rw [List.findSomeM?_cons, StateT.run_bind, hanswer]
      rfl
  | passed hnone _ ih =>
      rw [List.findSomeM?_cons, StateT.run_bind, hnone]
      exact ih

/-- The visitor that also writes down where it is asked. -/
def recording (visitor : Trie → StateM σ (Option β)) (node : Trie) :
    StateM (σ × List Trie) (Option β) := fun (state, seen) =>
  let (answer, next) := (visitor node).run state
  (answer, next, seen ++ [node])

theorem run_recording {visitor : Trie → StateM σ (Option β)} {node : Trie}
    {state next : σ} {answer : Option β}
    (hask : (visitor node).run state = (answer, next)) (seen : List Trie) :
    (recording visitor node).run (state, seen) =
      (answer, next, seen ++ [node]) := by
  change (((visitor node).run state).1, ((visitor node).run state).2,
    seen ++ [node]) = _
  rw [hask]

theorem Asks.run_findSomeM?_recording {visitor : Trie → StateM σ (Option β)}
    {nodes asked : List Trie} {state last : σ} {answer : Option β}
    (hasks : Asks visitor nodes state asked answer last) (seen : List Trie) :
    (nodes.findSomeM? (recording visitor)).run (state, seen) =
      (answer, last, seen ++ asked) := by
  induction hasks generalizing seen with
  | exhausted =>
      rw [List.append_nil]
      rfl
  | answered hanswer =>
      rw [List.findSomeM?_cons, StateT.run_bind, run_recording hanswer]
      rfl
  | @passed node later asked state next last answer hnone _ ih =>
      rw [List.findSomeM?_cons, StateT.run_bind, run_recording hnone,
        List.append_cons seen node asked]
      exact ih (seen ++ [node])

end Asks

/-- The visitor that writes down where it is asked and never answers. -/
def note (node : Trie) : StateM (List Trie) (Option Unit) := fun seen =>
  (none, seen ++ [node])

theorem run_findSomeM?_note (nodes seen : List Trie) :
    (nodes.findSomeM? note).run seen = (none, seen ++ nodes) := by
  induction nodes generalizing seen with
  | nil =>
      rw [List.append_nil]
      rfl
  | cons node later ih =>
      rw [List.findSomeM?_cons, StateT.run_bind, List.append_cons]
      exact ih (seen ++ [node])

/-! ## Tries that are built -/

/-- The tries that insertions build, each at the node of some pattern. -/
inductive Built : Trie → Prop where
  | empty : Built .empty
  | insert {trie : Trie} (hbuilt : Built trie)
      (change : Candidates → Candidates) (pattern : List Element) :
      Built (trie.insertPath change pattern)

theorem Built.distinctChildren {trie : Trie} (hbuilt : trie.Built) :
    trie.DistinctChildren := by
  induction hbuilt with
  | empty => exact distinctChildren_empty
  | insert _ change pattern ih =>
      rw [insertPath_eq]
      exact ih.update change (cutAfterRest pattern)

/-- In a built trie no node is passed over: a request can end exactly at the
nodes, of all that there are, whose paths fit its segments. -/
theorem Built.mem_endings_iff {trie : Trie} (hbuilt : trie.Built)
    {segments : List String} {path : List Element} {node : Trie} :
    (path, node) ∈ trie.endings segments ↔
      (path, node) ∈ trie.nodes ∧ Fits path segments := by
  rw [mem_endings, mem_nodes_iff hbuilt.distinctChildren, and_comm]

end Trie

theorem Builder.built_run {α : Type} (requests : List (Attempt α)) :
    (run requests).trie.Built := by
  have hempty : (empty : Builder α).trie.Built := .empty
  refine List.foldlRecOn (motive := fun builder => builder.trie.Built)
    requests attempt hempty ?_
  intro builder hbuilt request _
  rcases builder.attempt_cases request with heq | ⟨parsed, _, _, _, heq⟩
  · rw [heq]
    exact hbuilt
  · rw [heq]
    exact hbuilt.insert _ _

namespace Trie

/-- In a built trie, the nodes whose paths fit the segments have one order by
the ranks of their paths.  A visitor that never answers is asked at each of them
once, in this order.  Any other visitor is asked in this order until it answers,
that is the answer of the search, and it is asked at no node after that. -/
theorem searchM_asks_in_order {trie : Trie} (hbuilt : trie.Built)
    (segments : List String) :
    ∃ visited : List (List Element × Trie),
      (∀ path node, (path, node) ∈ visited ↔
        (path, node) ∈ trie.nodes ∧ Fits path segments) ∧
      (visited.Pairwise fun first second =>
        shapeRank first.1 < shapeRank second.1) ∧
      (trie.searchM note segments).run [] = (none, visited.map Prod.snd) ∧
      (∀ (σ β : Type) (visitor : Trie → StateM σ (Option β)) (state : σ),
        ∃ asked answer last,
          Asks visitor (visited.map Prod.snd) state asked answer last ∧
            (trie.searchM visitor segments).run state = (answer, last) ∧
            (trie.searchM (recording visitor) segments).run (state, []) =
              (answer, last, asked)) ∧
      trie.visits segments = visited.map Prod.snd ∧
      ∀ (β : Type) (accept : Trie → Option β),
        trie.search accept segments =
          Id.run (trie.searchM (fun node => pure (accept node)) segments) := by
  have hvisits := visits_eq_map_endings segments trie
  refine ⟨trie.endings segments, fun path node => hbuilt.mem_endings_iff,
    pairwise_endings segments trie, ?_, ?_, hvisits,
    fun β accept => search_eq_searchM accept segments trie⟩
  · rw [searchM_eq_findSomeM?, run_findSomeM?_note, hvisits, List.nil_append]
  · intro σ β visitor state
    obtain ⟨asked, answer, last, hasks⟩ :=
      exists_asks visitor (trie.visits segments) state
    refine ⟨asked, answer, last, hvisits ▸ hasks, ?_, ?_⟩
    · rw [searchM_eq_findSomeM?, hasks.run_findSomeM?]
    · rw [searchM_eq_findSomeM?, hasks.run_findSomeM?_recording,
        List.nil_append]

theorem searchM_asks_in_order_with_overlap :
    (Builder.run [⟨.reject, "GET", "/a/**", 0⟩, ⟨.reject, "PUT", "/*/b", 1⟩,
        ⟨.reject, "GET", "/a/{x}", 2⟩]).trie.Built ∧
    ∃ visited : List (List Element × Trie),
      (visited.Pairwise fun first second =>
        shapeRank first.1 < shapeRank second.1) ∧
      ((Builder.run [⟨.reject, "GET", "/a/**", 0⟩,
          ⟨.reject, "PUT", "/*/b", 1⟩,
          ⟨.reject, "GET", "/a/{x}", 2⟩]).trie.searchM note ["a", "b"]).run [] =
        (none, visited.map Prod.snd) ∧
      visited.length = 3 := by
  have hbuilt := Builder.built_run [⟨.reject, "GET", "/a/**", 0⟩,
    ⟨.reject, "PUT", "/*/b", 1⟩, ⟨.reject, "GET", "/a/{x}", 2⟩]
  obtain ⟨visited, _, hincreasing, hrecorded, _⟩ :=
    searchM_asks_in_order hbuilt ["a", "b"]
  have hlength : ((Builder.run [⟨.reject, "GET", "/a/**", 0⟩,
      ⟨.reject, "PUT", "/*/b", 1⟩, ⟨.reject, "GET", "/a/{x}", 2⟩]).trie.searchM
        note ["a", "b"]).run [] |>.2.length = 3 := by
    decide +kernel
  rw [hrecorded, List.length_map] at hlength
  exact ⟨hbuilt, visited, hincreasing, hrecorded, hlength⟩

end Trie
end HttpRoutes
