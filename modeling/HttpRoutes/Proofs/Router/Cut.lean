import HttpRoutes.Proofs.Router.Search
import HttpRoutes.Proofs.Template.Placement

/-!
# Cutting a request at the segments of a template

A request instantiates a template if its segments can be cut into blocks, one
for each segment of the template.  Three walks through a template have to agree
on that cut: its shape decides whether a request fits, its bindings count the
positions of the elements, and capturing reads the request at those positions.

Without late variables they do agree: a request fits the shape exactly if it
can be cut, there is only one cut, and what is captured are its blocks.  A late
variable asks for one segment more than the shape does, so there a request may
fit and still be too short to be captured.
-/

namespace HttpRoutes

/-- The segments of a request in blocks, one for each segment of a template.
A block with a `**` takes all that is left. -/
inductive Cut : List Segment → List String → List (List String) → Prop where
  | nil : Cut [] [] []
  | cons {segment : Segment} {segments : List Segment}
      {block left : List String} {blocks : List (List String)}
      (hblock : Fits segment.elements block)
      (hrest : .rest ∈ segment.elements → left = [])
      (hleft : Cut segments left blocks) :
      Cut (segment :: segments) (block ++ left) (block :: blocks)

/-- The field path of every variable with its block, joined by slashes. -/
def blockValues (segments : List Segment) (blocks : List (List String)) :
    List (String × String) :=
  (segments.zip blocks).filterMap fun (segment, block) =>
    segment.var?.map fun var => (var.path.text, "/".intercalate block)

/-- The recorded range lies within the segments of a request. -/
def Binding.FitsIn (count : Nat) (binding : Binding) : Prop :=
  binding.start ≤ binding.stop.getD count ∧ binding.stop.getD count ≤ count

/-! ## Shapes and their parts -/

theorem fits_append_iff {front shape : List Element} {segments : List String}
    (hfront : .rest ∉ front) :
    Fits (front ++ shape) segments ↔
      ∃ block left, segments = block ++ left ∧ Fits front block ∧
        Fits shape left := by
  induction front generalizing segments with
  | nil => simp
  | cons element front ih =>
      rw [List.mem_cons, not_or] at hfront
      rw [List.cons_append]
      cases element with
      | literal text =>
          rw [fits_literal_iff]
          constructor
          · rintro ⟨tail, rfl, hfits⟩
            obtain ⟨block, left, rfl, hblock, hleft⟩ := (ih hfront.2).mp hfits
            exact ⟨text :: block, left, rfl, .literal hblock, hleft⟩
          · rintro ⟨block, left, rfl, hblock, hleft⟩
            obtain ⟨tail, rfl, htail⟩ := fits_literal_iff.mp hblock
            exact ⟨tail ++ left, rfl, (ih hfront.2).mpr ⟨_, _, rfl, htail, hleft⟩⟩
      | any =>
          rw [fits_any_iff]
          constructor
          · rintro ⟨segment, tail, rfl, hsegment, hfits⟩
            obtain ⟨block, left, rfl, hblock, hleft⟩ := (ih hfront.2).mp hfits
            exact ⟨segment :: block, left, rfl, .any hsegment hblock, hleft⟩
          · rintro ⟨block, left, rfl, hblock, hleft⟩
            obtain ⟨segment, tail, rfl, hsegment, htail⟩ :=
              fits_any_iff.mp hblock
            exact ⟨segment, tail ++ left, rfl, hsegment,
              (ih hfront.2).mpr ⟨_, _, rfl, htail, hleft⟩⟩
      | rest => exact absurd rfl hfront.1

theorem Fits.length_eq {shape : List Element} {segments : List String}
    (hfits : Fits shape segments) (hnone : .rest ∉ shape) :
    segments.length = shape.length := by
  induction hfits with
  | nil => rfl
  | literal _ ih => simp [ih (by simpa using hnone)]
  | any _ _ ih => simp [ih (by simpa using hnone)]
  | rest => simp at hnone

/-- In a shape that fits, a `**` can only be last. -/
theorem Fits.getLast?_eq_rest_iff {shape : List Element}
    {segments : List String} (hfits : Fits shape segments) :
    shape.getLast? = some .rest ↔ .rest ∈ shape := by
  induction hfits with
  | nil => simp
  | @literal text shape segments hfits ih =>
      cases shape with
      | nil => simp
      | cons element shape => simpa using ih
  | @any segment shape segments hsegment hfits ih =>
      cases shape with
      | nil => simp
      | cons element shape => simpa using ih
  | rest => simp

theorem cutAfterRest_append {front : List Element} (hfront : .rest ∉ front)
    (elements : List Element) :
    cutAfterRest (front ++ elements) = front ++ cutAfterRest elements := by
  induction front with
  | nil => rfl
  | cons element front ih =>
      rw [List.mem_cons, not_or] at hfront
      cases element with
      | literal text => simp [ih hfront.2]
      | any => simp [ih hfront.2]
      | rest => exact absurd rfl hfront.1

theorem cutAfterRest_of_not_mem {elements : List Element}
    (hrest : .rest ∉ elements) : cutAfterRest elements = elements := by
  simpa using cutAfterRest_append hrest []

/-! ## Cuts and shapes -/

theorem shape_cons_of_holder {segment : Segment} {segments : List Segment}
    {front : List Element} (helements : segment.elements = front ++ [.rest])
    (hfront : .rest ∉ front) :
    cutAfterRest ((segment :: segments).flatMap Segment.elements) =
      segment.elements := by
  rw [List.flatMap_cons, helements, List.append_assoc,
    cutAfterRest_append hfront]
  rfl

theorem shape_cons_of_before {segment : Segment} {segments : List Segment}
    (hnone : .rest ∉ segment.elements) :
    cutAfterRest ((segment :: segments).flatMap Segment.elements) =
      segment.elements ++ cutAfterRest (segments.flatMap Segment.elements) := by
  rw [List.flatMap_cons, cutAfterRest_append hnone]

theorem Cut.fits {segments : List Segment} {left : List String}
    {blocks : List (List String)} (hlast : RestLast segments)
    (hcut : Cut segments left blocks) :
    Fits (cutAfterRest (segments.flatMap Segment.elements)) left := by
  induction hcut with
  | nil => exact .nil
  | @cons segment segments block left blocks hblock hrest hleft ih =>
      cases hlast with
      | before hnone hlater =>
          rw [shape_cons_of_before hnone, fits_append_iff hnone]
          exact ⟨block, left, rfl, hblock, ih hlater⟩
      | holder helements hfront _ =>
          rw [shape_cons_of_holder helements hfront,
            hrest (by simp [helements]), List.append_nil]
          exact hblock

theorem RestLast.exists_cut {segments : List Segment} {left : List String}
    (hlast : RestLast segments) (hlate : lateVariables segments = [])
    (hfits : Fits (cutAfterRest (segments.flatMap Segment.elements)) left) :
    ∃ blocks, Cut segments left blocks := by
  induction hlast generalizing left with
  | nil =>
      rw [List.flatMap_nil, cutAfterRest_nil, fits_nil_iff] at hfits
      exact ⟨[], hfits ▸ .nil⟩
  | @before segment segments hnone _ ih =>
      rw [shape_cons_of_before hnone, fits_append_iff hnone] at hfits
      obtain ⟨block, later, rfl, hblock, hlater⟩ := hfits
      rw [lateVariables, if_neg hnone] at hlate
      obtain ⟨blocks, hcut⟩ := ih hlate hlater
      exact ⟨block :: blocks, .cons hblock (absurd · hnone) hcut⟩
  | @holder segment segments front helements hfront hdefault =>
      rw [shape_cons_of_holder helements hfront] at hfits
      rw [lateVariables, if_pos (by simp [helements])] at hlate
      cases segments with
      | nil =>
          exact ⟨[left], by simpa using Cut.cons hfits (fun _ => rfl) .nil⟩
      | cons later segments =>
          obtain ⟨path, rfl⟩ := hdefault later (by simp)
          simp at hlate

theorem Cut.unique {segments : List Segment} {left : List String}
    {blocks blocks' : List (List String)} (hcut : Cut segments left blocks)
    (hcut' : Cut segments left blocks') : blocks' = blocks := by
  generalize heq : left = left' at hcut'
  induction hcut generalizing blocks' left' with
  | nil =>
      cases hcut'
      rfl
  | @cons segment segments block left blocks hblock hrest hleft ih =>
      cases hcut' with
      | @cons _ _ block' left' blocks' hblock' hrest' hleft' =>
          have hsame : block = block' ∧ left = left' := by
            by_cases hmem : .rest ∈ segment.elements
            · rw [hrest hmem, hrest' hmem, List.append_nil,
                List.append_nil] at heq
              exact ⟨heq, (hrest hmem).trans (hrest' hmem).symm⟩
            · apply List.append_inj heq
              rw [hblock.length_eq hmem, hblock'.length_eq hmem]
          rw [hsame.1, ih _ hsame.2 hleft']

/-! ## Capturing a cut -/

theorem bindingsFrom_eq_nil {segments : List Segment}
    (hnone : segments.filterMap Segment.var? = []) (position : Nat) :
    bindingsFrom position segments = [] := by
  apply List.eq_nil_of_length_eq_zero
  rw [length_bindingsFrom, hnone, List.length_nil]

theorem blockValues_cons (segment : Segment) (segments : List Segment)
    (block : List String) (blocks : List (List String)) :
    blockValues (segment :: segments) (block :: blocks) =
      (segment.var?.map fun var =>
        (var.path.text, "/".intercalate block)).toList ++
          blockValues segments blocks := by
  cases segment <;> rfl

theorem blockValues_eq_nil {segments : List Segment}
    (hnone : segments.filterMap Segment.var? = [])
    (blocks : List (List String)) : blockValues segments blocks = [] := by
  rw [blockValues, List.filterMap_eq_nil_iff]
  rintro ⟨segment, block⟩ hmem
  have hvar := List.filterMap_eq_nil_iff.mp hnone segment
    (List.of_mem_zip hmem).1
  simp [hvar]

theorem Cut.map_fst_blockValues {segments : List Segment} {left : List String}
    {blocks : List (List String)} (hcut : Cut segments left blocks) :
    (blockValues segments blocks).map Prod.fst =
      (segments.filterMap Segment.var?).map fun var => var.path.text := by
  induction hcut with
  | nil => rfl
  | @cons segment segments block left blocks hblock hrest hleft ih =>
      rw [blockValues_cons, List.map_append, ih, List.filterMap_cons]
      cases segment.var? <;> rfl

theorem Variable.capture_bindingAt {var : Variable}
    {block left : List String} (hblock : Fits var.pattern block)
    (hrest : .rest ∈ var.pattern → left = []) (front : List String) :
    (var.bindingAt front.length).capture (front ++ (block ++ left)) =
      .ok (var.path.text, "/".intercalate block) := by
  unfold Binding.capture bindingAt
  by_cases hmem : .rest ∈ var.pattern
  · have hlast := hblock.getLast?_eq_rest_iff.mpr hmem
    simp [hlast, hrest hmem]
  · have hlast : var.pattern.getLast? ≠ some .rest :=
      fun hlast => hmem (hblock.getLast?_eq_rest_iff.mp hlast)
    have hlength := hblock.length_eq hmem
    simp [hlast, ← hlength]

/-- Without late variables, what is captured are the blocks of the cut. -/
theorem Cut.captures_eq {segments : List Segment} {left : List String}
    {blocks : List (List String)} (hcut : Cut segments left blocks)
    (hlate : lateVariables segments = []) (front : List String) :
    captures (front ++ left) (bindingsFrom front.length segments) =
      .ok (blockValues segments blocks) := by
  induction hcut generalizing front with
  | nil => rfl
  | @cons segment segments block left blocks hblock hrest hleft ih =>
      rw [bindingsFrom_cons, blockValues_cons]
      -- Past a `**` the positions are off, but no variable is left there.
      have hlater : captures (front ++ (block ++ left))
          (bindingsFrom (front.length + segment.elements.length) segments) =
            .ok (blockValues segments blocks) := by
        rw [lateVariables] at hlate
        split at hlate
        next hmem =>
          rw [bindingsFrom_eq_nil hlate, blockValues_eq_nil hlate]
          rfl
        next hmem =>
          have hblocks := ih hlate (front ++ block)
          rw [List.length_append, hblock.length_eq hmem,
            List.append_assoc] at hblocks
          exact hblocks
      cases segment with
      | plain element => exact hlater
      | «variable» var =>
          have hvar := Variable.capture_bindingAt hblock hrest front
          simp only [Segment.elements_variable] at hlater
          simp [captures, hvar, hlater]

/-! ## Recorded ranges that do not fit -/

theorem Binding.capture_eq_error_iff {segments : List String}
    {binding : Binding} :
    (∃ range, binding.capture segments = .error range) ↔
      ¬ binding.FitsIn segments.length := by
  unfold capture FitsIn
  by_cases hfits : binding.start ≤ binding.stop.getD segments.length ∧
      binding.stop.getD segments.length ≤ segments.length
  · simp [hfits]
  · simp only [if_neg hfits]
    exact ⟨fun _ => hfits, fun _ => ⟨_, rfl⟩⟩

theorem captures_eq_error_iff {segments : List String}
    {bindings : List Binding} :
    (∃ range, captures segments bindings = .error range) ↔
      ∃ binding ∈ bindings, ¬ binding.FitsIn segments.length := by
  induction bindings with
  | nil => simp [captures]
  | cons binding bindings ih =>
      simp only [List.mem_cons, exists_eq_or_imp, ← ih]
      rw [← Binding.capture_eq_error_iff, captures]
      cases binding.capture segments with
      | error range => simp
      | ok value => cases captures segments bindings <;> simp

theorem Variable.fitsIn_bindingAt_iff {var : Variable} {position count : Nat} :
    (var.bindingAt position).FitsIn count ↔
      position ≤ count ∧ (var.pattern.getLast? ≠ some .rest →
        position + var.pattern.length ≤ count) := by
  unfold Binding.FitsIn bindingAt
  by_cases hlast : var.pattern.getLast? = some .rest
  · simp [hlast]
  · rw [if_neg hlast, Option.getD_some]
    constructor
    · exact fun hfits =>
        ⟨(Nat.le_add_right _ _).trans hfits.2, fun _ => hfits.2⟩
    · exact fun hfits => ⟨Nat.le_add_right _ _, hfits.2 hlast⟩

/-- Variables without a pattern take one segment each, so the last of them
tells whether all fit. -/
theorem exists_misfit_of_default {segments : List Segment}
    (hdefault : ∀ later ∈ segments, later.IsDefault) (position count : Nat) :
    (∃ binding ∈ bindingsFrom position segments, ¬ binding.FitsIn count) ↔
      1 ≤ (segments.filterMap Segment.var?).length ∧
        count < position + (segments.filterMap Segment.var?).length := by
  induction segments generalizing position with
  | nil => simp [bindingsFrom]
  | cons segment segments ih =>
      obtain ⟨path, rfl⟩ := hdefault segment (by simp)
      have hlater := ih (fun later hmem => hdefault later (by simp [hmem]))
        (position + 1)
      have hfirst : (Variable.bindingAt position ⟨path, [.any]⟩).FitsIn count ↔
          position + 1 ≤ count := by
        rw [Variable.fitsIn_bindingAt_iff]
        constructor
        · exact fun hfits => hfits.2 (by simp)
        · exact fun hle => ⟨by omega, fun _ => hle⟩
      have hlength : ((Segment.variable ⟨path, [.any]⟩ :: segments).filterMap
          Segment.var?).length =
            (segments.filterMap Segment.var?).length + 1 := rfl
      rw [bindingsFrom, hlength]
      simp only [List.mem_cons, exists_eq_or_imp, List.length_singleton,
        hlater, hfirst]
      omega

theorem exists_misfit_cons_iff {segment : Segment} {segments : List Segment}
    {position count : Nat}
    (hfirst : ∀ var, segment.var? = some var →
      (var.bindingAt position).FitsIn count) :
    (∃ binding ∈ bindingsFrom position (segment :: segments),
        ¬ binding.FitsIn count) ↔
      ∃ binding ∈ bindingsFrom (position + segment.elements.length) segments,
        ¬ binding.FitsIn count := by
  rw [bindingsFrom_cons]
  cases hvar : segment.var? with
  | none => simp
  | some var => simp [hfirst var hvar]

theorem Segment.elements_eq_pattern {segment : Segment} {var : Variable}
    (hvar : segment.var? = some var) : segment.elements = var.pattern := by
  cases segment with
  | plain element => simp at hvar
  | «variable» other =>
      simp only [Segment.var?_variable, Option.some.injEq] at hvar
      rw [hvar, elements_variable]

theorem getElem?_eq_rest_iff {front after : List Element}
    (hfront : .rest ∉ front) (hafter : .rest ∉ after) {k : Nat} :
    (front ++ .rest :: after)[k]? = some .rest ↔ k = front.length := by
  have hblock := getElem?_block_eq_some_iff hfront hafter 1 k
  rw [List.replicate_one, List.singleton_append] at hblock
  rw [hblock]
  omega

/-- A request that fits the shape misses a recorded range exactly if it has
fewer segments than the flattened form has elements up to the last late
variable. -/
theorem RestLast.exists_misfit_iff {segments : List Segment}
    (hlast : RestLast segments) {left : List String} (position : Nat)
    (hfits : Fits (cutAfterRest (segments.flatMap Segment.elements)) left) :
    (∃ binding ∈ bindingsFrom position segments,
        ¬ binding.FitsIn (position + left.length)) ↔
      ∃ k, (segments.flatMap Segment.elements)[k]? = some .rest ∧
        1 ≤ (lateVariables segments).length ∧
        left.length < k + 1 + (lateVariables segments).length := by
  induction hlast generalizing left position with
  | nil => simp [bindingsFrom]
  | @before segment segments hnone _ ih =>
      rw [shape_cons_of_before hnone, fits_append_iff hnone] at hfits
      obtain ⟨block, later, rfl, hblock, hlater⟩ := hfits
      have hlength := hblock.length_eq hnone
      have hcount : position + (block ++ later).length =
          position + segment.elements.length + later.length := by
        rw [List.length_append]
        omega
      rw [exists_misfit_cons_iff, hcount, ih _ hlater, List.flatMap_cons,
        lateVariables, if_neg hnone, List.length_append]
      · simp only [getElem?_append_eq_some_iff hnone]
        constructor
        · rintro ⟨k, hk, hlate, hlt⟩
          refine ⟨segment.elements.length + k, ⟨by omega, ?_⟩, hlate, by omega⟩
          rw [Nat.add_sub_cancel_left]
          exact hk
        · rintro ⟨k, ⟨hle, hk⟩, hlate, hlt⟩
          exact ⟨k - segment.elements.length, hk, hlate, by omega⟩
      · intro var hvar
        have helements := segment.elements_eq_pattern hvar
        rw [Variable.fitsIn_bindingAt_iff, ← helements]
        exact ⟨by omega, fun _ => by omega⟩
  | @holder segment segments front helements hfront hdefault =>
      have hfirst : ∀ var, segment.var? = some var →
          (var.bindingAt position).FitsIn (position + left.length) := by
        intro var hvar
        rw [Variable.fitsIn_bindingAt_iff, ← segment.elements_eq_pattern hvar]
        exact ⟨by omega, fun hnot => absurd (by simp [helements]) hnot⟩
      have hflat : (segment :: segments).flatMap Segment.elements =
          front ++ .rest :: List.replicate
            (segments.filterMap Segment.var?).length .any := by
        rw [List.flatMap_cons, helements, flatMap_elements_of_default hdefault,
          List.append_assoc]
        rfl
      have hafter : .rest ∉ List.replicate
          (segments.filterMap Segment.var?).length Element.any := by
        simp [List.mem_replicate]
      -- The `**` counts as one position, however many segments it takes.
      rw [exists_misfit_cons_iff hfirst, exists_misfit_of_default hdefault,
        lateVariables, if_pos (by simp [helements]), hflat, helements]
      simp only [getElem?_eq_rest_iff hfront hafter, exists_eq_left,
        List.length_append, List.length_singleton]
      omega

end HttpRoutes
