import HttpRoutes.Proofs.Template.Spelling
import Mathlib.Data.List.Count
import Mathlib.Data.List.Nodup

/-!
# Where a `**` can stand

A `**` ends the elements that a template spells, but not always its flattened
form: a variable that leaves its pattern out adds one `*` behind it.  Such
variables are the late variables of a template.  This module derives from the
spelling of a template all that holds of its segments, and concludes that a
`**` is the last flattened element exactly when there is no late variable.

Field paths are compared by their names while reading.  Since no name holds a
dot, distinct field paths also have distinct dotted forms.
-/

namespace HttpRoutes

/-- A variable that leaves its pattern out spans one segment. -/
def Segment.IsDefault (segment : Segment) : Prop :=
  ∃ path, segment = .variable ⟨path, [.any]⟩

/-- The segment that holds a `**` ends with it, and only variables without a
pattern follow. -/
inductive RestLast : List Segment → Prop where
  | nil : RestLast []
  | before {segment : Segment} {segments : List Segment}
      (hnone : .rest ∉ segment.elements) (hlater : RestLast segments) :
      RestLast (segment :: segments)
  | holder {segment : Segment} {segments : List Segment}
      {front : List Element} (helements : segment.elements = front ++ [.rest])
      (hfront : .rest ∉ front)
      (hdefault : ∀ later ∈ segments, later.IsDefault) :
      RestLast (segment :: segments)

/-- The variables of the segments after the one that holds the first `**`. -/
def lateVariables : List Segment → List Variable
  | [] => []
  | segment :: segments =>
    if .rest ∈ segment.elements then segments.filterMap Segment.var?
    else lateVariables segments

/-- The variables of a template that come after its first `**`. -/
def Template.lateVars (template : Template) : List Variable :=
  lateVariables template.segments

structure Template.WellFormed (template : Template) : Prop where
  elements : ∀ element ∈ template.flatten, IsElement element
  patterns : ∀ var ∈ template.vars, IsPattern var.pattern
  paths : ∀ var ∈ template.vars, IsFieldPath var.path
  distinct : (template.vars.map Variable.path).Nodup
  restLast : RestLast template.segments
  verb : ∀ verb, template.verb = some verb → IsText verb

namespace Template

/-! ## One segment -/

theorem SpellsSegment.isElement {restSeen : Bool} {segment : Segment}
    {text : List Char} (hspelled : SpellsSegment restSeen segment text) :
    ∀ element ∈ segment.elements, IsElement element := by
  cases hspelled with
  | plain _ helement => simpa using helement
  | short _ => simp [IsElement]
  | long _ _ hpattern => exact hpattern.elements

theorem SpellsSegment.rest_not_mem_dropLast {restSeen : Bool}
    {segment : Segment} {text : List Char}
    (hspelled : SpellsSegment restSeen segment text) :
    .rest ∉ segment.elements.dropLast := by
  cases hspelled with
  | plain => simp
  | short => simp
  | long _ _ hpattern => exact hpattern.restLast

theorem SpellsSegment.isDefault {segment : Segment} {text : List Char}
    (hspelled : SpellsSegment true segment text) : segment.IsDefault := by
  cases hspelled with
  | plain hfirst => contradiction
  | short => exact ⟨_, rfl⟩
  | long hfirst => contradiction

theorem SpellsSegment.variable {restSeen : Bool} {segment : Segment}
    {text : List Char} {var : Variable}
    (hspelled : SpellsSegment restSeen segment text)
    (hvar : segment.var? = some var) :
    IsPattern var.pattern ∧ IsFieldPath var.path := by
  cases hspelled with
  | plain => simp at hvar
  | short hpath =>
      simp only [Segment.var?_variable, Option.some.injEq] at hvar
      subst var
      exact ⟨⟨by simp, by simp [IsElement], by simp⟩, hpath⟩
  | long _ hpath hpattern =>
      simp only [Segment.var?_variable, Option.some.injEq] at hvar
      subst var
      exact ⟨hpattern, hpath⟩

/-! ## Several segments -/

theorem SpellsSegments.forall_spelled {restSeen : Bool}
    {bound : List FieldPath} {segments : List Segment} {text : List Char}
    (hspelled : SpellsSegments restSeen bound segments text) :
    ∀ segment ∈ segments, ∃ seen spelling,
      SpellsSegment seen segment spelling := by
  induction hspelled with
  | last hsegment =>
      intro segment hmem
      rw [List.mem_singleton] at hmem
      exact ⟨_, _, hmem ▸ hsegment⟩
  | cons hsegment _ _ ih =>
      intro segment hmem
      rcases List.mem_cons.mp hmem with heq | hlater
      · exact ⟨_, _, heq ▸ hsegment⟩
      · exact ih segment hlater

theorem SpellsSegments.forall_isDefault {restSeen : Bool}
    {bound : List FieldPath} {segments : List Segment} {text : List Char}
    (hspelled : SpellsSegments restSeen bound segments text)
    (hseen : restSeen = true) : ∀ segment ∈ segments, segment.IsDefault := by
  induction hspelled with
  | last hsegment =>
      subst hseen
      simpa using hsegment.isDefault
  | cons hsegment _ _ ih =>
      subst hseen
      simpa using ⟨hsegment.isDefault, ih (by simp)⟩

theorem eq_append_rest_of_mem {elements : List Element}
    (hmem : .rest ∈ elements) (hlast : .rest ∉ elements.dropLast) :
    elements = elements.dropLast ++ [.rest] := by
  have hne : elements ≠ [] := List.ne_nil_of_mem hmem
  have hsplit := List.dropLast_append_getLast hne
  have hgetLast : elements.getLast hne = .rest := by
    rw [← hsplit, List.mem_append, List.mem_singleton] at hmem
    rcases hmem with hfront | heq
    · contradiction
    · exact heq.symm
  rw [hgetLast] at hsplit
  exact hsplit.symm

theorem SpellsSegments.restLast {restSeen : Bool} {bound : List FieldPath}
    {segments : List Segment} {text : List Char}
    (hspelled : SpellsSegments restSeen bound segments text)
    (hseen : restSeen = false) : RestLast segments := by
  induction hspelled with
  | @last restSeen bound segment text hsegment _ =>
      by_cases hrest : .rest ∈ segment.elements
      · exact .holder
          (eq_append_rest_of_mem hrest hsegment.rest_not_mem_dropLast)
          hsegment.rest_not_mem_dropLast (by simp)
      · exact .before hrest .nil
  | @cons restSeen bound segment segments text others hsegment _ hlater ih =>
      by_cases hrest : .rest ∈ segment.elements
      · have hdefault : ∀ later ∈ segments, later.IsDefault :=
          hlater.forall_isDefault (by simp [hrest])
        exact .holder
          (eq_append_rest_of_mem hrest hsegment.rest_not_mem_dropLast)
          hsegment.rest_not_mem_dropLast hdefault
      · exact .before hrest (ih (by simp [hseen, hrest]))

theorem SpellsSegments.distinct {restSeen : Bool} {bound : List FieldPath}
    {segments : List Segment} {text : List Char}
    (hspelled : SpellsSegments restSeen bound segments text) :
    ((segments.filterMap Segment.var?).map Variable.path).Nodup ∧
      ∀ var ∈ segments.filterMap Segment.var?, var.path ∉ bound := by
  induction hspelled with
  | @last restSeen bound segment text _ hfresh =>
      cases hvar : segment.var? with
      | none => simp [hvar]
      | some var => simpa [hvar] using hfresh var hvar
  | @cons restSeen bound segment segments text others _ hfresh _ ih =>
      obtain ⟨hnodup, hbound⟩ := ih
      cases hvar : segment.var? with
      | none =>
          simp only [addBound, hvar] at hbound
          rw [List.filterMap_cons_none hvar]
          exact ⟨hnodup, hbound⟩
      | some var =>
          simp only [addBound, hvar, List.mem_cons, not_or] at hbound
          rw [List.filterMap_cons_some hvar]
          constructor
          · rw [List.map_cons, List.nodup_cons]
            refine ⟨?_, hnodup⟩
            intro hmem
            obtain ⟨other, hother, heq⟩ := List.mem_map.mp hmem
            exact (hbound other hother).1 heq
          · intro other hother
            rcases List.mem_cons.mp hother with heq | hlater
            · exact heq ▸ hfresh var hvar
            · exact (hbound other hlater).2

theorem SpellsSegments.wellFormed {bound : List FieldPath}
    {segments : List Segment} {text : List Char} {verb : Option String}
    (hspelled : SpellsSegments false bound segments text)
    (hverb : ∀ name, verb = some name → IsText name) :
    WellFormed ⟨segments, verb⟩ := by
  constructor
  · intro element hmem
    obtain ⟨segment, hsegment, helement⟩ := List.mem_flatMap.mp hmem
    obtain ⟨seen, spelling, hone⟩ := hspelled.forall_spelled segment hsegment
    exact hone.isElement element helement
  · intro var hmem
    obtain ⟨segment, hsegment, hvar⟩ := List.mem_filterMap.mp hmem
    obtain ⟨seen, spelling, hone⟩ := hspelled.forall_spelled segment hsegment
    exact (hone.variable hvar).1
  · intro var hmem
    obtain ⟨segment, hsegment, hvar⟩ := List.mem_filterMap.mp hmem
    obtain ⟨seen, spelling, hone⟩ := hspelled.forall_spelled segment hsegment
    exact (hone.variable hvar).2
  · exact hspelled.distinct.1
  · exact hspelled.restLast rfl
  · exact hverb

theorem Spells.wellFormed {template : Template} {text : List Char}
    (hspelled : Spells template text) : template.WellFormed := by
  cases hspelled with
  | root =>
      constructor <;> simp [flatten, vars, RestLast.nil]
  | plain hsegments => exact hsegments.wellFormed (by simp)
  | verb hsegments hverb => exact hsegments.wellFormed (by simpa using hverb)

theorem parse_wellFormed {text : String} {template : Template}
    (hparse : parse text = .ok template) : template.WellFormed :=
  (parse_spells hparse).wellFormed

theorem Spells.segments_ne_nil {template : Template} {text : List Char}
    (hspelled : Spells template text) {verb : String}
    (hverb : template.verb = some verb) : template.segments ≠ [] := by
  cases hspelled with
  | root => simp at hverb
  | plain _ => simp at hverb
  | verb hsegments _ => cases hsegments <;> simp

end Template

/-! ## Dotted forms -/

theorem joinWith_eq_intercalate (separator : Char)
    (pieces : List (List Char)) :
    joinWith separator pieces = [separator].intercalate pieces := by
  induction pieces with
  | nil => rfl
  | cons piece pieces ih =>
      cases pieces with
      | nil => simp [joinWith]
      | cons other others =>
          rw [joinWith, ih, List.intercalate_cons_cons]
          · simp
          · simp

theorem Template.IsName.dot_not_mem {name : String} (hname : IsName name) :
    '.' ∉ name.toList := by
  obtain ⟨c, cs, htext, hstart, hrest⟩ := hname
  rw [htext, List.mem_cons]
  rintro (heq | hmem)
  · rw [← heq] at hstart
    exact absurd hstart (by decide)
  · exact absurd (hrest '.' hmem) (by decide)

theorem FieldPath.text_injective {path other : FieldPath}
    (hpath : Template.IsFieldPath path) (hother : Template.IsFieldPath other)
    (htext : path.text = other.text) : path = other := by
  have hpieces (path : FieldPath) (hpath : Template.IsFieldPath path) :
      path.chars.splitOn '.' = path.components.map String.toList := by
    rw [chars, joinWith_eq_intercalate]
    apply List.splitOn_intercalate
    · intro piece hpiece
      obtain ⟨name, hname, rfl⟩ := List.mem_map.mp hpiece
      exact (hpath.names name hname).dot_not_mem
    · simpa using hpath.nonempty
  have hchars : path.chars = other.chars := String.ofList_injective htext
  have hcomponents : path.components = other.components := by
    apply List.map_injective_iff.mpr (fun _ _ => String.toList_inj.mp)
    rw [← hpieces path hpath, ← hpieces other hother, hchars]
  cases path
  cases other
  exact congrArg FieldPath.mk hcomponents

theorem Template.WellFormed.distinct_text {template : Template}
    (hgood : template.WellFormed) :
    (template.vars.map fun var => var.path.text).Nodup := by
  have hmap : (template.vars.map fun var => var.path.text) =
      (template.vars.map Variable.path).map FieldPath.text := by simp
  rw [hmap]
  apply List.Nodup.map_on _ hgood.distinct
  intro path hpath other hother htext
  obtain ⟨var, hvar, rfl⟩ := List.mem_map.mp hpath
  obtain ⟨var', hvar', rfl⟩ := List.mem_map.mp hother
  exact FieldPath.text_injective (hgood.paths var hvar)
    (hgood.paths var' hvar') htext

/-! ## The flattened form -/

theorem Template.WellFormed.flatten_ne_nil {template : Template}
    (hgood : template.WellFormed) (hsegments : template.segments ≠ []) :
    template.flatten ≠ [] := by
  obtain ⟨segment, hmem⟩ := List.exists_mem_of_ne_nil _ hsegments
  have hne : segment.elements ≠ [] := by
    cases segment with
    | plain element => simp
    | «variable» var =>
        have hvar : var ∈ template.vars :=
          List.mem_filterMap.mpr ⟨_, hmem, rfl⟩
        exact (hgood.patterns var hvar).nonempty
  intro hnil
  exact hne (List.flatMap_eq_nil_iff.mp hnil segment hmem)

theorem flatMap_elements_of_default {segments : List Segment}
    (hdefault : ∀ later ∈ segments, later.IsDefault) :
    segments.flatMap Segment.elements =
      List.replicate (segments.filterMap Segment.var?).length .any := by
  induction segments with
  | nil => rfl
  | cons segment segments ih =>
      obtain ⟨path, rfl⟩ := hdefault segment (by simp)
      have hlater := ih fun later hmem => hdefault later (by simp [hmem])
      simp [hlater, List.replicate_succ]

/-- The flattened form holds at most one `**`, and behind it there is one `*`
for each late variable. -/
theorem RestLast.flatten {segments : List Segment}
    (hlast : RestLast segments) :
    (.rest ∉ segments.flatMap Segment.elements ∧ lateVariables segments = []) ∨
      ∃ front, .rest ∉ front ∧ segments.flatMap Segment.elements =
        front ++ .rest :: List.replicate (lateVariables segments).length .any := by
  induction hlast with
  | nil => exact .inl ⟨by simp, rfl⟩
  | @before segment segments hnone _ ih =>
      rw [lateVariables, if_neg hnone, List.flatMap_cons]
      rcases ih with ⟨hrest, hlate⟩ | ⟨front, hfront, hflat⟩
      · exact .inl ⟨by simp [hnone, hrest], hlate⟩
      · refine .inr ⟨segment.elements ++ front, by simp [hnone, hfront], ?_⟩
        rw [hflat, List.append_assoc]
  | @holder segment segments front helements hfront hdefault =>
      have hrest : .rest ∈ segment.elements := by simp [helements]
      rw [lateVariables, if_pos hrest, List.flatMap_cons, helements,
        flatMap_elements_of_default hdefault]
      exact .inr ⟨front, hfront, by simp⟩

theorem RestLast.lateVariables_pattern {segments : List Segment}
    (hlast : RestLast segments) :
    ∀ var ∈ lateVariables segments, var.pattern = [.any] := by
  induction hlast with
  | nil => simp [lateVariables]
  | before hnone _ ih =>
      rw [lateVariables, if_neg hnone]
      exact ih
  | @holder segment segments front helements _ hdefault =>
      rw [lateVariables, if_pos (by simp [helements])]
      intro var hmem
      obtain ⟨later, hlater, hvar⟩ := List.mem_filterMap.mp hmem
      obtain ⟨path, rfl⟩ := hdefault later hlater
      simp only [Segment.var?_variable, Option.some.injEq] at hvar
      exact hvar ▸ rfl

theorem eq_of_append_rest_eq {front others after tail : List Element}
    (hfront : .rest ∉ front) (hafter : .rest ∉ after)
    (heq : front ++ .rest :: after = others ++ .rest :: tail) :
    tail = after := by
  induction front generalizing others with
  | nil =>
      cases others with
      | nil => simpa using heq.symm
      | cons element others =>
          simp only [List.nil_append, List.cons_append, List.cons.injEq] at heq
          exact absurd (heq.2 ▸ by simp) hafter
  | cons element front ih =>
      simp only [List.mem_cons, not_or] at hfront
      cases others with
      | nil =>
          simp only [List.cons_append, List.nil_append, List.cons.injEq] at heq
          exact absurd heq.1.symm hfront.1
      | cons other others =>
          simp only [List.cons_append, List.cons.injEq] at heq
          exact ih hfront.2 heq.2

theorem Template.WellFormed.after_rest {template : Template}
    (hgood : template.WellFormed) {front after : List Element}
    (hflat : template.flatten = front ++ .rest :: after) :
    after = List.replicate template.lateVars.length .any := by
  rcases hgood.restLast.flatten with ⟨hnone, _⟩ | ⟨others, hothers, heq⟩
  · exact absurd (show .rest ∈ template.flatten by simp [hflat]) hnone
  · exact eq_of_append_rest_eq hothers (by simp [List.mem_replicate])
      (heq.symm.trans hflat)

theorem Template.WellFormed.count_rest_le {template : Template}
    (hgood : template.WellFormed) : template.flatten.count .rest ≤ 1 := by
  rcases hgood.restLast.flatten with ⟨hnone, _⟩ | ⟨front, hfront, hflat⟩
  · rw [Template.flatten, List.count_eq_zero_of_not_mem hnone]
    exact Nat.zero_le 1
  · rw [Template.flatten, hflat, List.count_append, List.count_cons_self,
      List.count_eq_zero_of_not_mem hfront, List.count_replicate]
    simp

theorem mem_of_mem_lateVariables {segments : List Segment} {var : Variable}
    (hmem : var ∈ lateVariables segments) :
    var ∈ segments.filterMap Segment.var? := by
  induction segments with
  | nil => simp [lateVariables] at hmem
  | cons segment segments ih =>
      rw [lateVariables] at hmem
      have hlater : var ∈ segments.filterMap Segment.var? := by
        split at hmem
        · exact hmem
        · exact ih hmem
      rw [List.filterMap_cons]
      split
      · exact hlater
      · exact List.mem_cons_of_mem _ hlater

/-- Every template that is read holds at most one `**`, its patterns are not
empty and its field paths are distinct.  Behind a `**` stands one `*` for each
late variable, so a `**` is last exactly when there is no late variable. -/
theorem parse_rest_last_iff {text : String} {template : Template}
    (hparse : Template.parse text = .ok template) :
    template.flatten.count .rest ≤ 1 ∧
      (∀ var ∈ template.vars, var.pattern ≠ []) ∧
      (template.vars.map fun var => var.path.text).Nodup ∧
      (∀ var ∈ template.lateVars, var ∈ template.vars ∧ var.pattern = [.any]) ∧
      (∀ front after, template.flatten = front ++ .rest :: after →
        after = List.replicate template.lateVars.length .any) ∧
      ((∀ front after, template.flatten = front ++ .rest :: after →
        after = []) ↔ template.lateVars = []) := by
  have hgood : template.WellFormed := Template.parse_wellFormed hparse
  refine ⟨hgood.count_rest_le, ?_, hgood.distinct_text, ?_, ?_, ?_⟩
  · exact fun var hvar => (hgood.patterns var hvar).nonempty
  · exact fun var hvar => ⟨mem_of_mem_lateVariables hvar,
      hgood.restLast.lateVariables_pattern var hvar⟩
  · exact fun front after hflat => hgood.after_rest hflat
  · constructor
    · intro hlast
      rcases hgood.restLast.flatten with ⟨_, hlate⟩ | ⟨front, _, hflat⟩
      · exact hlate
      · have hempty := hlast front _ hflat
        rw [List.replicate_eq_nil_iff] at hempty
        exact List.length_eq_zero_iff.mp hempty
    · intro hlate front after hflat
      rw [hgood.after_rest hflat, hlate]
      rfl

theorem parse_rest_last_iff_with_verb :
    Template.parse "/v1/{a=x/**}:go" = .ok
        ⟨[.plain (.literal "v1"), .variable ⟨⟨["a"]⟩, [.literal "x", .rest]⟩],
          some "go"⟩ ∧
      ∀ front after,
        [.literal "v1", .literal "x", .rest] = front ++ Element.rest :: after →
          after = [] := by
  have hparse : Template.parse "/v1/{a=x/**}:go" = .ok
      ⟨[.plain (.literal "v1"), .variable ⟨⟨["a"]⟩, [.literal "x", .rest]⟩],
        some "go"⟩ := by
    decide +kernel
  exact ⟨hparse, (parse_rest_last_iff hparse).2.2.2.2.2.mpr rfl⟩

/-- A `**` need not be the last element: a variable may follow it. -/
theorem not_forall_parse_rest_last :
    ¬ ∀ text template, Template.parse text = .ok template →
      ∀ front after, template.flatten = front ++ .rest :: after →
        after = [] := by
  intro hall
  have hparse : Template.parse "/**/{x}" = .ok
      ⟨[.plain .rest, .variable ⟨⟨["x"]⟩, [.any]⟩], none⟩ := by
    decide +kernel
  exact absurd (hall _ _ hparse [] [.any] rfl) (by simp)

end HttpRoutes
