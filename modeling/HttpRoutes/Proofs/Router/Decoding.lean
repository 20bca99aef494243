import HttpRoutes.Proofs.Router.Capture
import HttpRoutes.Proofs.Text.Percent

/-!
# Decoded values

A variable that spans one segment is decoded in full, since its value holds no
slash that could be confused with a decoded one.  A variable that may span
several keeps encoded slashes encoded, so the segments of its decoded value are
those of the request.  Which of the two applies is looked up in the bindings by
the name of the field, which no two variables of a template share.
-/

namespace HttpRoutes

open Percent (bytesOfText decodeEscapes encodedSlash)

variable {α : Type}

/-! ## The block of one variable -/

theorem Cut.exists_block {segments : List Segment} {left : List String}
    {blocks : List (List String)} (hcut : Cut segments left blocks)
    {var : Variable} (hmem : var ∈ segments.filterMap Segment.var?) :
    ∃ block, Fits var.pattern block ∧ block ⊆ left ∧
      (var.path.text, "/".intercalate block) ∈ blockValues segments blocks := by
  induction hcut with
  | nil => simp at hmem
  | @cons segment segments block left blocks hblock hrest hleft ih =>
      rw [blockValues_cons]
      have hlater (hmem : var ∈ segments.filterMap Segment.var?) :
          ∃ other, Fits var.pattern other ∧ other ⊆ block ++ left ∧
            (var.path.text, "/".intercalate other) ∈
              (segment.var?.map fun var =>
                (var.path.text, "/".intercalate block)).toList ++
                  blockValues segments blocks := by
        obtain ⟨other, hfits, hsub, hvalue⟩ := ih hmem
        exact ⟨other, hfits, List.subset_append_of_subset_right _ hsub,
          List.mem_append_right _ hvalue⟩
      cases segment with
      | plain element => exact hlater hmem
      | «variable» first =>
          rcases List.mem_cons.mp hmem with rfl | hmem
          · exact ⟨block, hblock, List.subset_append_left _ _, by simp⟩
          · exact hlater hmem

theorem segmentsAfterSlash_intercalate {block : List String} (hne : block ≠ [])
    (hfree : ∀ segment ∈ block, '/' ∉ segment.toList) :
    segmentsAfterSlash ("/".intercalate block).toList = block := by
  apply segmentsAfterSlash_eq_of_slashed hfree
  rw [slashed_eq_intercalate hne, String.toList_intercalate]
  rfl

/-- A variable that is not multi-segment takes exactly one segment. -/
theorem Fits.exists_eq_singleton {var : Variable} {block : List String}
    (hfits : Fits var.pattern block) (hne : var.pattern ≠ [])
    (hsingle : var.isMultiSegment = false) : ∃ segment, block = [segment] := by
  rw [Variable.isMultiSegment, Bool.or_eq_false_iff] at hsingle
  obtain ⟨hlength, hrest⟩ := hsingle
  have hnone : .rest ∉ var.pattern := by simpa using hrest
  have hpos : var.pattern.length ≠ 0 := by simpa using hne
  have hle : ¬ 1 < var.pattern.length := by simpa using hlength
  rw [← List.length_eq_one_iff, hfits.length_eq hnone]
  omega

/-! ## Looking a field up -/

theorem any_bindingsFrom (position : Nat) (segments : List Segment)
    (field : String) :
    (bindingsFrom position segments).any
        (fun b => b.isMultiSegment && b.field = field) =
      (segments.filterMap Segment.var?).any fun var =>
        var.isMultiSegment && var.path.text = field := by
  have hany := congrArg
    (List.any · fun (name, multi) => multi && decide (name = field))
    (map_bindingsFrom position segments)
  simpa only [List.any_map, Function.comp_def] using hany

theorem Template.WellFormed.any_bindings {template : Template}
    (hgood : template.WellFormed) {var : Variable} (hmem : var ∈ template.vars) :
    (template.bindings.any fun b =>
      b.isMultiSegment && b.field = var.path.text) = var.isMultiSegment := by
  rw [Template.bindings, any_bindingsFrom, Bool.eq_iff_iff, List.any_eq_true]
  constructor
  · rintro ⟨other, hother, hboth⟩
    rw [Bool.and_eq_true, decide_eq_true_iff] at hboth
    have hsame := List.inj_on_of_nodup_map hgood.distinct_text hother hmem hboth.2
    exact hsame ▸ hboth.1
  · exact fun hmulti => ⟨var, hmem, by simp [hmulti]⟩

namespace Match

theorem get?_eq_some {found : Match α}
    (hnodup : (found.values.map Prod.fst).Nodup) {field raw : String}
    (hmem : (field, raw) ∈ found.values) : found.get? field = some raw := by
  unfold get?
  cases hfind : found.values.find? fun entry => entry.1 = field with
  | none => simpa using List.find?_eq_none.mp hfind _ hmem
  | some entry =>
      have hfield : entry.1 = field := by simpa using List.find?_some hfind
      have hentry : entry = (field, raw) :=
        List.inj_on_of_nodup_map hnodup (List.mem_of_find?_eq_some hfind) hmem hfield
      rw [hentry]
      rfl

theorem decoded?_eq {found : Match α} (hgood : found.route.template.WellFormed)
    {var : Variable} (hmem : var ∈ found.route.template.vars) {raw : String}
    (hraw : found.get? var.path.text = some raw) :
    found.decoded? var.path.text =
      if var.isMultiSegment then Percent.decodeKeepingSlashes raw
      else Percent.decode raw := by
  unfold decoded?
  rw [hraw, Route.bindings, hgood.any_bindings hmem]
  rfl

end Match

namespace Builder

/-- After every run of registrations, a match without late variables decodes
the block of each variable.  One segment is decoded in full.  Several segments
are decoded each on its own, with encoded slashes kept, and whether the value
decodes at all is the same as for all of its escapes. -/
theorem lookup_run_decoded (requests : List (Attempt α)) (method path : String)
    {found : Match α}
    (hlookup : (run requests).build.lookup method path = .ok found)
    (hlate : found.route.template.lateVars = []) {var : Variable}
    (hvar : var ∈ found.route.template.vars) :
    ∃ raw block, found.get? var.path.text = some raw ∧
      Fits var.pattern block ∧ raw = "/".intercalate block ∧
      (block ≠ [] → segmentsAfterSlash raw.toList = block) ∧
      (var.isMultiSegment = false →
        '/' ∉ raw.toList ∧
        found.decoded? var.path.text = Percent.decode raw) ∧
      (var.isMultiSegment = true →
        (found.decoded? var.path.text = none ↔ Percent.decode raw = none) ∧
        ∀ text, found.decoded? var.path.text = some text →
          ((segmentsAfterSlash text.toList).map bytesOfText =
            (segmentsAfterSlash raw.toList).map fun segment =>
              decodeEscapes encodedSlash (bytesOfText segment)) ∧
          text.toList.count '/' = raw.toList.count '/') := by
  have hgood : (run requests).Consistent := consistent_run requests
  obtain ⟨selection, hselect, hroute, hcaptures⟩ := hgood.lookup_eq_ok hlookup
  obtain ⟨hroutes, -, htakes, hfits⟩ := RouteList.select?_eq_some hselect
  rw [hroute] at hroutes htakes hfits
  have htemplate := hgood.wellFormed hroutes
  obtain ⟨blocks, hcut⟩ := htemplate.restLast.exists_cut hlate hfits
  have hvalues : found.values =
      blockValues found.route.template.segments blocks :=
    Except.ok.inj (hcaptures.symm.trans (hcut.captures_eq hlate []))
  have hnodup : (found.values.map Prod.fst).Nodup := by
    rw [hvalues, hcut.map_fst_blockValues]
    exact htemplate.distinct_text
  obtain ⟨block, hblock, hsub, hmem⟩ := hcut.exists_block hvar
  have hraw : found.get? var.path.text = some ("/".intercalate block) :=
    Match.get?_eq_some hnodup (hvalues ▸ hmem)
  have hdecoded := Match.decoded?_eq htemplate hvar hraw
  have hfree : ∀ segment ∈ block, '/' ∉ segment.toList := by
    have hsegments := (htakes.isPathText fun segment =>
      isPathText_of_mem_requestSegments).1
    exact fun segment hsegment => (hsegments segment (hsub hsegment)).slash
  refine ⟨_, block, hraw, hblock, rfl, ?_, ?_, ?_⟩
  · exact fun hne => segmentsAfterSlash_intercalate hne hfree
  · intro hsingle
    obtain ⟨segment, rfl⟩ :=
      hblock.exists_eq_singleton (htemplate.patterns var hvar).nonempty hsingle
    refine ⟨?_, by simpa [hsingle] using hdecoded⟩
    simpa using hfree segment (by simp)
  · intro hmulti
    rw [hdecoded, if_pos hmulti]
    refine ⟨Percent.decodeKeepingSlashes_eq_none_iff _, fun text htext => ?_⟩
    exact ⟨Percent.segments_of_decodeKeepingSlashes htext,
      Percent.count_slash_of_decodeKeepingSlashes htext⟩

theorem lookup_run_decoded_with_broken_escape :
    ∃ found, (run [⟨.reject, "GET", "/v1/{a}/{x=b/**}", ()⟩]).build.lookup
        "GET" "/v1/p%2Fq/b/%2%2F%252F/%C3%A9" = .ok found ∧
      found.decoded? "a" = Percent.decode "p%2Fq" ∧
      found.decoded? "x" = some "b/%2%2F%2F/é" ∧
      ["b", "%2%2F%2F", "é"].map bytesOfText =
        ["b", "%2%2F%252F", "%C3%A9"].map fun segment =>
          decodeEscapes encodedSlash (bytesOfText segment) := by
  let requests : List (Attempt Unit) := [⟨.reject, "GET", "/v1/{a}/{x=b/**}", ()⟩]
  let path := "/v1/p%2Fq/b/%2%2F%252F/%C3%A9"
  let template : Template := ⟨[.plain (.literal "v1"), .variable ⟨⟨["a"]⟩, [.any]⟩,
    .variable ⟨⟨["x"]⟩, [.literal "b", .rest]⟩], none⟩
  have hlookup : (run requests).build.lookup "GET" path = .ok ⟨⟨"GET", template, ()⟩,
      [("a", "p%2Fq"), ("x", "b/%2%2F%252F/%C3%A9")]⟩ := by
    decide +kernel
  have hfirst : ⟨⟨["a"]⟩, [.any]⟩ ∈ template.vars := by decide
  have hsecond : ⟨⟨["x"]⟩, [.literal "b", .rest]⟩ ∈ template.vars := by decide
  obtain ⟨raw, block, hraw, _, _, _, hsingle, _⟩ :=
    lookup_run_decoded requests "GET" path hlookup (by decide) hfirst
  obtain ⟨raw', block', hraw', _, _, _, _, hmulti⟩ :=
    lookup_run_decoded requests "GET" path hlookup (by decide) hsecond
  cases hraw
  cases hraw'
  have hdecoded : Percent.decodeKeepingSlashes "b/%2%2F%252F/%C3%A9" =
      some "b/%2%2F%2F/é" := by
    decide +kernel
  have hsegments := ((hmulti rfl).2 _ hdecoded).1
  have htext : segmentsAfterSlash "b/%2%2F%2F/é".toList =
      ["b", "%2%2F%2F", "é"] := by
    decide +kernel
  have hvalue : segmentsAfterSlash "b/%2%2F%252F/%C3%A9".toList =
      ["b", "%2%2F%252F", "%C3%A9"] := by
    decide +kernel
  rw [htext, hvalue] at hsegments
  exact ⟨_, hlookup, (hsingle rfl).2, hdecoded, hsegments⟩

end Builder
end HttpRoutes
