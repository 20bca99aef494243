import HttpRoutes.Proofs.Router.Paths
import Mathlib.Order.Basic
import Mathlib.Data.List.Lex

/-!
# What a search visits

A shape fits a list of segments when each of its literals is the segment at its
position, each `*` meets a segment that is not empty, and `**` takes all that
remain.  Shapes are ranked element by element: a literal comes before `*`, `*`
before `**`, and the end of a shape before everything.

A search through the trie backtracks, but it has a plain description.  The
nodes where a request can end, each with the path that leads there, form a
list: it holds exactly the paths that exist and fit the segments, in the order
of their ranks, and a search answers with the first node that is accepted.
-/

namespace HttpRoutes

/-- The segments that a shape stands for. -/
inductive Fits : List Element → List String → Prop where
  | nil : Fits [] []
  | literal {text : String} {shape : List Element} {segments : List String}
      (hfits : Fits shape segments) :
      Fits (.literal text :: shape) (text :: segments)
  | any {segment : String} {shape : List Element} {segments : List String}
      (hsegment : segment ≠ "") (hfits : Fits shape segments) :
      Fits (.any :: shape) (segment :: segments)
  | rest {segments : List String} : Fits [.rest] segments

def Element.rank : Element → Nat
  | .literal _ => 0
  | .any => 1
  | .rest => 2

/-- Ranks are compared as lists, so the end of a shape comes first. -/
def shapeRank (shape : List Element) : List Nat := shape.map Element.rank

@[simp] theorem fits_nil_iff {segments : List String} :
    Fits [] segments ↔ segments = [] := by
  constructor
  · intro hfits
    cases hfits
    rfl
  · rintro rfl
    exact .nil

@[simp] theorem fits_rest_iff {shape : List Element} {segments : List String} :
    Fits (.rest :: shape) segments ↔ shape = [] := by
  constructor
  · intro hfits
    cases hfits
    rfl
  · rintro rfl
    exact .rest

theorem fits_literal_iff {text : String} {shape : List Element}
    {segments : List String} :
    Fits (.literal text :: shape) segments ↔
      ∃ tail, segments = text :: tail ∧ Fits shape tail := by
  constructor
  · intro hfits
    cases hfits with
    | literal hfits => exact ⟨_, rfl, hfits⟩
  · rintro ⟨tail, rfl, hfits⟩
    exact .literal hfits

theorem fits_any_iff {shape : List Element} {segments : List String} :
    Fits (.any :: shape) segments ↔
      ∃ segment tail, segments = segment :: tail ∧ segment ≠ "" ∧
        Fits shape tail := by
  constructor
  · intro hfits
    cases hfits with
    | any hsegment hfits => exact ⟨_, _, rfl, hsegment, hfits⟩
  · rintro ⟨segment, tail, rfl, hsegment, hfits⟩
    exact .any hsegment hfits

@[simp] theorem fits_literal_cons_iff {text segment : String}
    {shape : List Element} {segments : List String} :
    Fits (.literal text :: shape) (segment :: segments) ↔
      text = segment ∧ Fits shape segments := by
  simp [fits_literal_iff, and_assoc, eq_comm]

@[simp] theorem fits_any_cons_iff {segment : String} {shape : List Element}
    {segments : List String} :
    Fits (.any :: shape) (segment :: segments) ↔
      segment ≠ "" ∧ Fits shape segments := by
  simp [fits_any_iff, and_assoc]

instance Fits.decidable :
    (shape : List Element) → (segments : List String) →
      Decidable (Fits shape segments)
  | [], _ => decidable_of_iff _ fits_nil_iff.symm
  | .rest :: _, _ => decidable_of_iff _ fits_rest_iff.symm
  | .literal _ :: _, [] => isFalse nofun
  | .any :: _, [] => isFalse nofun
  | .literal _ :: shape, _ :: segments =>
    have := Fits.decidable shape segments
    decidable_of_iff _ fits_literal_cons_iff.symm
  | .any :: shape, _ :: segments =>
    have := Fits.decidable shape segments
    decidable_of_iff _ fits_any_cons_iff.symm

theorem shapeRank_cons_lt {element other : Element}
    (shape shape' : List Element) (hrank : element.rank < other.rank) :
    shapeRank (element :: shape) < shapeRank (other :: shape') := by
  simp only [shapeRank, List.map_cons, List.cons_lt_cons_iff]
  exact .inl hrank

theorem shapeRank_cons_lt_cons_iff {element : Element}
    {shape shape' : List Element} :
    shapeRank (element :: shape) < shapeRank (element :: shape') ↔
      shapeRank shape < shapeRank shape' := by
  simp [shapeRank]

namespace Trie

/-- What lies below the child of `element`, with `element` put in front of
every path. -/
def under (element : Element) (below : Trie → List (List Element × Trie))
    (trie : Trie) : List (List Element × Trie) :=
  (trie.child? element).elim [] fun child =>
    (below child).map fun ending => (element :: ending.1, ending.2)

/-- The nodes where a request with these segments can end, each with the path
that leads there, in the order of a search. -/
def endings : List String → Trie → List (List Element × Trie)
  | [], trie => ([], trie) :: trie.under .rest fun node => [([], node)]
  | segment :: segments, trie =>
    trie.under (.literal segment) (endings segments) ++
      ((if segment = "" then [] else trie.under .any (endings segments)) ++
        trie.under .rest fun node => [([], node)])

@[simp] theorem nil_not_mem_under {element : Element}
    {below : Trie → List (List Element × Trie)} {trie node : Trie} :
    ([], node) ∉ trie.under element below := by
  unfold under
  cases trie.child? element <;> simp

@[simp] theorem cons_mem_under_iff {element other : Element}
    {below : Trie → List (List Element × Trie)} {trie node : Trie}
    {path : List Element} :
    (other :: path, node) ∈ trie.under element below ↔
      other = element ∧
        ∃ child, trie.child? element = some child ∧ (path, node) ∈ below child := by
  unfold under
  cases trie.child? element with
  | none => simp
  | some child =>
      simp only [Option.elim_some, List.mem_map, Prod.mk.injEq,
        List.cons.injEq, Option.some.injEq, exists_eq_left']
      constructor
      · rintro ⟨⟨tail, below⟩, hmem, ⟨rfl, rfl⟩, rfl⟩
        exact ⟨rfl, hmem⟩
      · rintro ⟨rfl, hmem⟩
        exact ⟨(path, node), hmem, ⟨rfl, rfl⟩, rfl⟩

theorem find?_cons_eq_some_iff {element : Element} {path : List Element}
    {trie node : Trie} :
    trie.find? (element :: path) = some node ↔
      ∃ child, trie.child? element = some child ∧
        child.find? path = some node := by
  rw [find?, Option.bind_eq_some_iff]

/-- A request can end exactly at the nodes whose paths fit its segments. -/
theorem mem_endings {segments : List String} {trie : Trie}
    {path : List Element} {node : Trie} :
    (path, node) ∈ trie.endings segments ↔
      Fits path segments ∧ trie.find? path = some node := by
  induction segments generalizing trie path with
  | nil =>
      cases path with
      | nil => simp [endings, find?, eq_comm]
      | cons element path =>
          rw [find?_cons_eq_some_iff]
          cases element with
          | literal text => simp [endings, fits_literal_iff]
          | any => simp [endings, fits_any_iff]
          | rest =>
              cases path <;> simp [endings, find?, eq_comm]
  | cons segment segments ih =>
      cases path with
      | nil => by_cases hempty : segment = "" <;> simp [endings, hempty]
      | cons element path =>
          rw [find?_cons_eq_some_iff]
          cases element with
          | literal text =>
              have hmem : (.literal text :: path, node) ∈
                  trie.endings (segment :: segments) ↔ text = segment ∧
                    ∃ child, trie.child? (.literal segment) = some child ∧
                      (path, node) ∈ child.endings segments := by
                by_cases hempty : segment = "" <;> simp [endings, hempty]
              rw [hmem, fits_literal_cons_iff, and_assoc]
              apply and_congr_right
              rintro rfl
              simp [ih, and_left_comm]
          | any =>
              by_cases hempty : segment = "" <;>
                simp [endings, hempty, ih, and_left_comm]
          | rest =>
              by_cases hempty : segment = "" <;>
                cases path <;> simp [endings, hempty, find?, eq_comm]

/-! ## The order of a search -/

theorem pairwise_under {element : Element}
    {below : Trie → List (List Element × Trie)} {trie : Trie}
    (hbelow : ∀ child, (below child).Pairwise fun first second =>
      shapeRank first.1 < shapeRank second.1) :
    (trie.under element below).Pairwise fun first second =>
      shapeRank first.1 < shapeRank second.1 := by
  unfold under
  cases trie.child? element with
  | none => simp
  | some child =>
      rw [Option.elim_some, List.pairwise_map]
      simpa only [shapeRank_cons_lt_cons_iff] using hbelow child

theorem rank_lt_of_mem_under {element other : Element}
    {below above : Trie → List (List Element × Trie)} {trie : Trie}
    {first second : List Element × Trie}
    (hrank : element.rank < other.rank)
    (hfirst : first ∈ trie.under element below)
    (hsecond : second ∈ trie.under other above) :
    shapeRank first.1 < shapeRank second.1 := by
  obtain ⟨path, node⟩ := first
  obtain ⟨path', node'⟩ := second
  cases path with
  | nil => simp at hfirst
  | cons head path =>
      cases path' with
      | nil => simp at hsecond
      | cons head' path' =>
          obtain ⟨rfl, _⟩ := cons_mem_under_iff.mp hfirst
          obtain ⟨rfl, _⟩ := cons_mem_under_iff.mp hsecond
          exact shapeRank_cons_lt path path' hrank

/-- A search goes through the nodes in the order of their ranks. -/
theorem pairwise_endings (segments : List String) (trie : Trie) :
    (trie.endings segments).Pairwise fun first second =>
      shapeRank first.1 < shapeRank second.1 := by
  have hrest (trie : Trie) :
      (trie.under .rest fun node => [([], node)]).Pairwise
        fun first second => shapeRank first.1 < shapeRank second.1 :=
    pairwise_under fun child => List.pairwise_singleton _ _
  induction segments generalizing trie with
  | nil =>
      rw [endings, List.pairwise_cons]
      refine ⟨?_, hrest trie⟩
      rintro ⟨path, node⟩ hmem
      cases path with
      | nil => simp at hmem
      | cons element path => simp [shapeRank]
  | cons segment segments ih =>
      rw [endings, List.pairwise_append, List.pairwise_append]
      refine ⟨pairwise_under ih, ⟨?_, hrest trie, ?_⟩, ?_⟩
      · split
        · exact List.Pairwise.nil
        · exact pairwise_under ih
      · intro first hfirst second hsecond
        split at hfirst
        · simp at hfirst
        · exact rank_lt_of_mem_under (by simp [Element.rank]) hfirst hsecond
      · intro first hfirst second hsecond
        rcases List.mem_append.mp hsecond with hany | hrest
        · split at hany
          · simp at hany
          · exact rank_lt_of_mem_under (by simp [Element.rank]) hfirst hany
        · exact rank_lt_of_mem_under (by simp [Element.rank]) hfirst hrest

/-! ## The answer of a search -/

theorem findSome?_under {β : Type} (accept : Trie → Option β)
    (element : Element) (below : Trie → List (List Element × Trie))
    (trie : Trie) :
    (trie.under element below).findSome? (fun ending => accept ending.2) =
      (trie.child? element).bind fun child =>
        (below child).findSome? fun ending => accept ending.2 := by
  unfold under
  cases trie.child? element with
  | none => rfl
  | some child =>
      rw [Option.elim_some, List.findSome?_map]
      rfl

theorem search_eq_findSome? {β : Type} (accept : Trie → Option β)
    (segments : List String) (trie : Trie) :
    trie.search accept segments =
      (trie.endings segments).findSome? fun ending => accept ending.2 := by
  induction segments generalizing trie with
  | nil =>
      rw [search, endings, List.findSome?_cons, findSome?_under]
      cases accept trie <;> simp
  | cons segment segments ih =>
      have hsearch : search accept segments = fun child =>
          (child.endings segments).findSome? fun ending => accept ending.2 :=
        funext ih
      rw [search, endings, List.findSome?_append, List.findSome?_append,
        findSome?_under, findSome?_under, hsearch]
      cases (trie.child? (.literal segment)).bind fun child =>
          (child.endings segments).findSome? fun ending => accept ending.2 with
      | some answer => rfl
      | none =>
          by_cases hempty : segment = ""
          · simp [hempty]
          · simp only [hempty, if_false, findSome?_under, Option.none_or]
            cases (trie.child? .any).bind fun child =>
                (child.endings segments).findSome? fun ending =>
                  accept ending.2 <;> simp

theorem search_eq_none_iff {β : Type} {accept : Trie → Option β}
    {segments : List String} {trie : Trie} :
    trie.search accept segments = none ↔
      ∀ path node, Fits path segments → trie.find? path = some node →
        accept node = none := by
  rw [search_eq_findSome?, List.findSome?_eq_none_iff]
  constructor
  · intro hnone path node hfits hfind
    exact hnone (path, node) (mem_endings.mpr ⟨hfits, hfind⟩)
  · rintro hnone ⟨path, node⟩ hmem
    obtain ⟨hfits, hfind⟩ := mem_endings.mp hmem
    exact hnone path node hfits hfind

/-- The answer of a search comes from the node of least rank among those that
are accepted. -/
theorem search_eq_some {β : Type} {accept : Trie → Option β}
    {segments : List String} {trie : Trie} {answer : β}
    (hsearch : trie.search accept segments = some answer) :
    ∃ path node, Fits path segments ∧ trie.find? path = some node ∧
      accept node = some answer ∧
        ∀ path' node', Fits path' segments → trie.find? path' = some node' →
          accept node' ≠ none →
            path' = path ∨ shapeRank path < shapeRank path' := by
  rw [search_eq_findSome?, List.findSome?_eq_some_iff] at hsearch
  obtain ⟨before, ⟨path, node⟩, after, hsplit, haccept, hbefore⟩ := hsearch
  have hmem : (path, node) ∈ trie.endings segments := by simp [hsplit]
  obtain ⟨hfits, hfind⟩ := mem_endings.mp hmem
  refine ⟨path, node, hfits, hfind, haccept, ?_⟩
  intro path' node' hfits' hfind' haccept'
  have hmem' : (path', node') ∈ trie.endings segments :=
    mem_endings.mpr ⟨hfits', hfind'⟩
  rw [hsplit, List.mem_append, List.mem_cons] at hmem'
  rcases hmem' with hfirst | heq | hlater
  · exact absurd (hbefore _ hfirst) haccept'
  · exact .inl (congrArg Prod.fst heq)
  · have hsorted := pairwise_endings segments trie
    rw [hsplit, List.pairwise_append, List.pairwise_cons] at hsorted
    exact .inr (hsorted.2.1.1 _ hlater)

end Trie
end HttpRoutes
