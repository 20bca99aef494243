import HttpRoutes.Proofs.Request.Path

/-!
# Paths between slashes

A path is its segments with a slash before each, and no segment holds one.  So
the segments are determined by the text, and a verb without a slash is cut off
the last of them.

A path that is one slash reads like one empty segment, but a request with that
path has no segments.
-/

namespace HttpRoutes

/-- The characters of a path with these segments. -/
def slashed (segments : List String) : List Char :=
  segments.flatMap fun segment => '/' :: segment.toList

/-- The segments of a path, given what follows its first slash. -/
def segmentsAfterSlash (cs : List Char) : List String :=
  (Text.splitOn '/' cs).map String.ofList

/-! ## Segments and text -/

@[simp] theorem slashed_nil : slashed [] = [] := rfl

@[simp] theorem slashed_cons (segment : String) (segments : List String) :
    slashed (segment :: segments) =
      '/' :: (segment.toList ++ slashed segments) := rfl

theorem Text.separator_not_mem_of_mem_splitOn {separator : Char}
    {cs piece : List Char} (hmem : piece ∈ splitOn separator cs) :
    separator ∉ piece := by
  induction cs generalizing piece with
  | nil => simp_all
  | cons c cs ih =>
      rw [splitOn] at hmem
      by_cases hc : c = separator
      · rw [if_pos hc, List.mem_cons] at hmem
        cases hmem with
        | inl hempty => simp [hempty]
        | inr hlater => exact ih hlater
      · rw [if_neg hc] at hmem
        cases hpieces : splitOn separator cs with
        | nil => exact absurd hpieces (splitOn_ne_nil separator cs)
        | cons first others =>
            rw [hpieces] at hmem ih
            cases List.mem_cons.mp hmem with
            | inl hfirst =>
                have hnot : separator ∉ first := ih (by simp)
                simp [hfirst, hnot, Ne.symm hc]
            | inr hlater => exact ih (List.mem_cons_of_mem _ hlater)

theorem length_segmentsAfterSlash (cs : List Char) :
    (segmentsAfterSlash cs).length = cs.count '/' + 1 := by
  rw [segmentsAfterSlash, List.length_map]
  induction cs with
  | nil => rfl
  | cons c cs ih =>
      rw [Text.splitOn]
      by_cases hc : c = '/'
      · simp [hc, ih]
      · rw [if_neg hc, List.count_cons_of_ne hc, ← ih]
        cases hpieces : Text.splitOn '/' cs with
        | nil => exact absurd hpieces (Text.splitOn_ne_nil '/' cs)
        | cons first others => rfl

theorem segmentsAfterSlash_ne_nil (cs : List Char) :
    segmentsAfterSlash cs ≠ [] := by
  simpa [segmentsAfterSlash] using Text.splitOn_ne_nil '/' cs

theorem slash_not_mem_segmentsAfterSlash (cs : List Char) :
    ∀ segment ∈ segmentsAfterSlash cs, '/' ∉ segment.toList := by
  intro segment hmem
  obtain ⟨piece, hpiece, htext⟩ := List.mem_map.mp hmem
  have hnot := Text.separator_not_mem_of_mem_splitOn hpiece
  simpa [← htext] using hnot

theorem slashed_eq_intercalate {segments : List String} (hne : segments ≠ []) :
    slashed segments =
      '/' :: ['/'].intercalate (segments.map String.toList) := by
  induction segments with
  | nil => contradiction
  | cons segment segments ih =>
      cases segments with
      | nil => simp
      | cons other others =>
          rw [slashed_cons, ih (by simp)]
          simp [List.intercalate_cons_cons]

theorem slashed_segmentsAfterSlash (cs : List Char) :
    slashed (segmentsAfterSlash cs) = '/' :: cs := by
  have hmap : (segmentsAfterSlash cs).map String.toList = cs.splitOn '/' := by
    simp [segmentsAfterSlash, Text.splitOn_eq_list_splitOn]
  rw [slashed_eq_intercalate (segmentsAfterSlash_ne_nil cs), hmap,
    List.intercalate_splitOn]

/-- Only one list of segments without slashes reads like this. -/
theorem segmentsAfterSlash_eq_of_slashed {segments : List String}
    {cs : List Char} (hfree : ∀ segment ∈ segments, '/' ∉ segment.toList)
    (htext : slashed segments = '/' :: cs) : segmentsAfterSlash cs = segments := by
  cases segments with
  | nil => contradiction
  | cons segment segments =>
      rw [slashed_eq_intercalate (by simp), List.cons.injEq] at htext
      have hpieces : ∀ piece ∈ (segment :: segments).map String.toList,
          '/' ∉ piece := by
        intro piece hmem
        obtain ⟨text, htext, heq⟩ := List.mem_map.mp hmem
        exact heq ▸ hfree text htext
      have hsplit := List.splitOn_intercalate '/' hpieces (by simp)
      rw [htext.2] at hsplit
      rw [segmentsAfterSlash, Text.splitOn_eq_list_splitOn, hsplit]
      simp [Function.comp_def]

theorem head_slashed (segments : List String) :
    ∀ c ∈ (slashed segments).head?, c = '/' := by
  cases segments with
  | nil => simp
  | cons segment segments => simp

theorem not_mem_slashed_iff {c : Char} (hc : c ≠ '/')
    {segments : List String} :
    c ∉ slashed segments ↔ ∀ segment ∈ segments, c ∉ segment.toList := by
  simp [slashed, hc]

/-! ## Requests -/

theorem requestSegments_of_slash {path : String} {cs : List Char}
    (hpath : path.toList = '/' :: cs) (hquery : '?' ∉ path.toList)
    (hfragment : '#' ∉ path.toList) :
    requestSegments path = if cs = [] then [] else segmentsAfterSlash cs := by
  have hcounted : (path.toList.takeWhile fun c => c != '?' && c != '#') =
      path.toList := by
    rw [List.takeWhile_eq_self_iff]
    intro c hmem
    have hc : c ≠ '?' := fun heq => hquery (heq ▸ hmem)
    have hc' : c ≠ '#' := fun heq => hfragment (heq ▸ hmem)
    simp [hc, hc']
  unfold requestSegments
  rw [hcounted, hpath]
  cases cs with
  | nil => rfl
  | cons c cs => rfl

/-- A verb without a slash belongs to the last segment. -/
theorem takesVerb_segmentsAfterSlash {verb : String} (hverb : '/' ∉ verb.toList)
    (cs : List Char) :
    TakesVerb (some verb) (segmentsAfterSlash (cs ++ ':' :: verb.toList))
      (segmentsAfterSlash cs) := by
  have hsplit := List.dropLast_append_getLast (segmentsAfterSlash_ne_nil cs)
  generalize (segmentsAfterSlash cs).dropLast = front at hsplit
  generalize (segmentsAfterSlash cs).getLast _ = head at hsplit
  have hfree := slash_not_mem_segmentsAfterSlash cs
  have hslashed := slashed_segmentsAfterSlash cs
  rw [← hsplit] at hfree hslashed ⊢
  refine ⟨front, head, ?_, rfl⟩
  apply segmentsAfterSlash_eq_of_slashed
  · intro segment hmem
    cases List.mem_append.mp hmem with
    | inl hfront => exact hfree segment (List.mem_append_left _ hfront)
    | inr hlast =>
        have hhead : '/' ∉ head.toList := hfree head (by simp)
        rw [List.mem_singleton.mp hlast]
        simp [hhead, hverb]
  · have hlast : slashed (front ++ [head ++ ":" ++ verb]) =
        slashed (front ++ [head]) ++ ':' :: verb.toList := by
      simp [slashed]
    rw [hlast, hslashed, List.cons_append]

/-- The text can be a segment of a request, or the verb at its end. -/
structure IsPathText (text : String) : Prop where
  slash : '/' ∉ text.toList
  query : '?' ∉ text.toList
  fragment : '#' ∉ text.toList

/-- What the segments of a request are cut from ends before the query. -/
theorem requestSegments_cases (path : String) :
    requestSegments path = [] ∨
      ∃ cs, requestSegments path = segmentsAfterSlash cs ∧ '?' ∉ cs ∧ '#' ∉ cs := by
  have hcounted : ∀ c ∈ path.toList.takeWhile (fun c => c != '?' && c != '#'),
      c ≠ '?' ∧ c ≠ '#' := by
    intro c hc
    simpa using List.mem_takeWhile_imp hc
  have hafter (cs : List Char) (hcs : ∀ c ∈ cs, c ≠ '?' ∧ c ≠ '#') :
      (if cs.isEmpty then [] else segmentsAfterSlash cs) = [] ∨
        ∃ other, (if cs.isEmpty then [] else segmentsAfterSlash cs) =
          segmentsAfterSlash other ∧ '?' ∉ other ∧ '#' ∉ other := by
    cases cs with
    | nil => exact .inl rfl
    | cons c cs =>
        exact .inr ⟨c :: cs, rfl, fun hmem => (hcs _ hmem).1 rfl,
          fun hmem => (hcs _ hmem).2 rfl⟩
  unfold requestSegments
  generalize path.toList.takeWhile (fun c => c != '?' && c != '#') = counted
    at hcounted
  cases counted with
  | nil => exact .inl rfl
  | cons c counted =>
      by_cases hc : c = '/'
      · subst hc
        exact hafter counted (List.forall_mem_cons.mp hcounted).2
      · have hwhole := hafter (c :: counted) hcounted
        simpa [hc, segmentsAfterSlash] using hwhole

/-- The segments of a request are texts that can be segments. -/
theorem isPathText_of_mem_requestSegments {path segment : String}
    (hmem : segment ∈ requestSegments path) : IsPathText segment := by
  rcases requestSegments_cases path with hnil | ⟨cs, hcs, hquery, hfragment⟩
  · rw [hnil] at hmem
    contradiction
  · rw [hcs] at hmem
    have hnone (c : Char) (hc : c ≠ '/') (hnot : c ∉ cs) : c ∉ segment.toList := by
      have hslashed : c ∉ slashed (segmentsAfterSlash cs) := by
        rw [slashed_segmentsAfterSlash, List.mem_cons, not_or]
        exact ⟨hc, hnot⟩
      exact (not_mem_slashed_iff hc).mp hslashed segment hmem
    exact ⟨slash_not_mem_segmentsAfterSlash cs segment hmem,
      hnone '?' (by decide) hquery, hnone '#' (by decide) hfragment⟩

/-- Nor does taking a verb off change that, and the verb is such a text as well. -/
theorem TakesVerb.isPathText {verb : Option String}
    {segments stripped : List String} (htakes : TakesVerb verb segments stripped)
    (hsegments : ∀ segment ∈ segments, IsPathText segment) :
    (∀ segment ∈ stripped, IsPathText segment) ∧
      ∀ name, verb = some name → IsPathText name := by
  cases verb with
  | none =>
      have hsame : stripped = segments := htakes
      exact ⟨hsame ▸ hsegments, by simp⟩
  | some name =>
      obtain ⟨front, head, rfl, rfl⟩ := htakes
      obtain ⟨hfront, hlast⟩ := List.forall_mem_append.mp hsegments
      obtain ⟨hslash, hquery, hfragment⟩ := hlast _ (List.mem_singleton_self _)
      simp only [String.toList_append, List.mem_append,
        not_or] at hslash hquery hfragment
      refine ⟨?_, ?_⟩
      · rw [List.forall_mem_append]
        refine ⟨hfront, ?_⟩
        rw [List.forall_mem_singleton]
        exact ⟨hslash.1.1, hquery.1.1, hfragment.1.1⟩
      · rintro other heq
        obtain rfl := Option.some.inj heq
        exact ⟨hslash.2, hquery.2, hfragment.2⟩

theorem segmentsAfterSlash_of_slashed {segments : List String}
    (hsegments : ∀ segment ∈ segments, IsPathText segment) {cs : List Char}
    (htext : slashed segments = '/' :: cs) :
    segmentsAfterSlash cs = segments ∧ '?' ∉ cs ∧ '#' ∉ cs := by
  have hquery : '?' ∉ slashed segments := by
    rw [not_mem_slashed_iff (by decide)]
    exact fun segment hmem => (hsegments segment hmem).query
  have hfragment : '#' ∉ slashed segments := by
    rw [not_mem_slashed_iff (by decide)]
    exact fun segment hmem => (hsegments segment hmem).fragment
  rw [htext, List.mem_cons, not_or] at hquery hfragment
  have hslash : ∀ segment ∈ segments, '/' ∉ segment.toList :=
    fun segment hmem => (hsegments segment hmem).slash
  exact ⟨segmentsAfterSlash_eq_of_slashed hslash htext, hquery.2, hfragment.2⟩

/-- Segments and a verb that a path can hold are those of some path. -/
theorem exists_path_of_segments {verb : Option String}
    {segments : List String}
    (hsegments : ∀ segment ∈ segments, IsPathText segment)
    (hverb : ∀ name, verb = some name → IsPathText name ∧ segments ≠ [])
    (hempty : verb = none → segments ≠ [""]) :
    ∃ path : String, path.toList.head? = some '/' ∧
      TakesVerb verb (requestSegments path) segments := by
  cases segments with
  | nil =>
      cases verb with
      | none => exact ⟨"/", by simp, rfl⟩
      | some name => exact absurd rfl (hverb name rfl).2
  | cons segment others =>
      obtain ⟨hback, hquery, hfragment⟩ :=
        segmentsAfterSlash_of_slashed hsegments (slashed_cons segment others)
      generalize segment.toList ++ slashed others = cs at hback hquery hfragment
      cases verb with
      | none =>
          have hne : cs ≠ [] := by
            intro hnil
            rw [hnil] at hback
            exact hempty rfl hback.symm
          let path := String.ofList ('/' :: cs)
          have htext : path.toList = '/' :: cs := String.toList_ofList
          have hpath : requestSegments path = segment :: others := by
            rw [requestSegments_of_slash htext (by simp [htext, hquery])
              (by simp [htext, hfragment]), if_neg hne, hback]
          exact ⟨path, by simp [htext], hpath.symm⟩
      | some name =>
          obtain ⟨hname, _⟩ := hverb name rfl
          let path := String.ofList ('/' :: (cs ++ ':' :: name.toList))
          have htext : path.toList = '/' :: (cs ++ ':' :: name.toList) :=
            String.toList_ofList
          have hpath : requestSegments path =
              segmentsAfterSlash (cs ++ ':' :: name.toList) := by
            rw [requestSegments_of_slash htext
              (by simp [htext, hquery, hname.query])
              (by simp [htext, hfragment, hname.fragment]), if_neg (by simp)]
          refine ⟨path, by simp [htext], ?_⟩
          rw [hpath, ← hback]
          exact takesVerb_segmentsAfterSlash hname.slash cs

theorem exists_append_of_takesVerb {verb : String} {cs : List Char}
    {stripped : List String}
    (htakes : TakesVerb (some verb) (segmentsAfterSlash cs) stripped) :
    ∃ front, '/' :: cs = front ++ ':' :: verb.toList := by
  obtain ⟨front, head, hsegments, _⟩ := htakes
  have hslashed := slashed_segmentsAfterSlash cs
  rw [hsegments] at hslashed
  refine ⟨slashed (front ++ [head]), ?_⟩
  rw [← hslashed]
  simp [slashed]

theorem exists_slash_of_append_colon {path front verb : String}
    (hpath : path = front ++ ":" ++ verb)
    (hslash : path.toList.head? = some '/') :
    ∃ head, front.toList = '/' :: head := by
  rw [hpath] at hslash
  cases htext : front.toList with
  | nil => simp [htext] at hslash
  | cons c head =>
      simp only [String.toList_append, htext, List.cons_append,
        List.head?_cons, Option.some.injEq] at hslash
      exact ⟨head, by rw [hslash]⟩

end HttpRoutes
