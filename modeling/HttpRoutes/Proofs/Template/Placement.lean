import HttpRoutes.Proofs.Template.WellFormed
import HttpRoutes.Template.Binding
import Mathlib.Data.List.Forall2

/-!
# Where the bindings of a template lie

A template is walked twice.  Flattening lays the elements of its segments end
to end, and the bindings are recorded on a walk of their own that only counts
those elements.  The two walks agree: cut at a variable, a template has the
binding of this variable start where the elements in front of the cut end.

That a pattern can be read off the flattened form at a binding does not pin the
binding down, since the same elements may stand at other positions too: in
`/*/{x}` there is a `*` at both.  The owners of a template tell from which
variable each element of the flattened form comes, and a binding covers exactly
the positions that its variable owns.
-/

namespace HttpRoutes

/-- For each element of a segment, the variable it comes from. -/
def Segment.owners (segment : Segment) : List (Option Variable) :=
  segment.elements.map fun _ => segment.var?

/-- For each element of the flattened form, the variable it comes from. -/
def Template.owners (template : Template) : List (Option Variable) :=
  template.segments.flatMap Segment.owners

/-- The binding covers the elements of the variable in the flattened form of
the template, and no others. -/
structure Binding.Covers (template : Template) (var : Variable)
    (binding : Binding) : Prop where
  field : binding.field = var.path.text
  isMultiSegment : binding.isMultiSegment = var.isMultiSegment
  inside : binding.start + var.pattern.length ≤ template.flatten.length
  window : template.flatten.extract binding.start
    (binding.start + var.pattern.length) = var.pattern
  owned : ∀ position, template.owners[position]? = some (some var) ↔
    binding.start ≤ position ∧ position < binding.start + var.pattern.length
  runsOn : binding.stop = none ↔ var.pattern.getLast? = some .rest
  stops : ∀ stop, binding.stop = some stop →
    stop = binding.start + var.pattern.length

/-! ## Where a member of a list stands -/

theorem getElem?_append_eq_some_iff {α : Type} {front : List α} {a : α}
    (hfront : a ∉ front) (after : List α) (position : Nat) :
    (front ++ after)[position]? = some a ↔
      front.length ≤ position ∧ after[position - front.length]? = some a := by
  rw [List.getElem?_append]
  split
  next hlt =>
    constructor
    · exact fun heq => absurd (List.mem_of_getElem? heq) hfront
    · omega
  next hge => simp [Nat.le_of_not_lt hge]

theorem getElem?_block_eq_some_iff {α : Type} {front after : List α} {a : α}
    (hfront : a ∉ front) (hafter : a ∉ after) (count position : Nat) :
    (front ++ (List.replicate count a ++ after))[position]? = some a ↔
      front.length ≤ position ∧ position < front.length + count := by
  rw [getElem?_append_eq_some_iff hfront, List.getElem?_append,
    List.length_replicate]
  split
  next hlt =>
    rw [List.getElem?_replicate_of_lt hlt]
    exact ⟨fun hle => by omega, fun hle => ⟨hle.1, rfl⟩⟩
  next hge =>
    constructor
    · exact fun heq => absurd (List.mem_of_getElem? heq.2) hafter
    · omega

/-! ## Owners -/

@[simp] theorem Segment.owners_plain (element : Element) :
    (Segment.plain element).owners = [none] := rfl

@[simp] theorem Segment.owners_variable (var : Variable) :
    (Segment.variable var).owners =
      List.replicate var.pattern.length (some var) := by
  simp [owners]

theorem length_flatMap_owners (segments : List Segment) :
    (segments.flatMap Segment.owners).length =
      (segments.flatMap Segment.elements).length := by
  simp [List.length_flatMap, Segment.owners]

theorem mem_vars_of_mem_owners {segments : List Segment} {var : Variable}
    (hmem : some var ∈ segments.flatMap Segment.owners) :
    var ∈ segments.filterMap Segment.var? := by
  obtain ⟨segment, hsegment, howner⟩ := List.mem_flatMap.mp hmem
  obtain ⟨element, _, hvar⟩ := List.mem_map.mp howner
  exact List.mem_filterMap.mpr ⟨segment, hsegment, hvar⟩

/-! ## The walk that records bindings -/

/-- A variable and its binding come from one place of the template, and the
binding starts where the elements of the segments before it end. -/
theorem exists_split_of_mem_zip {segments : List Segment} {position : Nat}
    {var : Variable} {binding : Binding}
    (hmem : (var, binding) ∈
      (segments.filterMap Segment.var?).zip (bindingsFrom position segments)) :
    ∃ before after, segments = before ++ .variable var :: after ∧
      binding = var.bindingAt
        (position + (before.flatMap Segment.elements).length) := by
  induction segments generalizing position with
  | nil => simp at hmem
  | cons segment segments ih =>
      cases segment with
      | plain element =>
          obtain ⟨before, after, rfl, rfl⟩ := ih hmem
          refine ⟨.plain element :: before, after, rfl, ?_⟩
          simp [Nat.add_assoc, Nat.add_comm]
      | «variable» head =>
          rcases List.mem_cons.mp hmem with heq | hlater
          · obtain ⟨rfl, rfl⟩ := Prod.mk.inj heq
            exact ⟨[], segments, rfl, rfl⟩
          · obtain ⟨before, after, rfl, rfl⟩ := ih hlater
            refine ⟨.variable head :: before, after, rfl, ?_⟩
            simp [Nat.add_assoc]

/-- Bindings keep the order of their variables and do not overlap. -/
theorem pairwise_zip_bindingsFrom (position : Nat) (segments : List Segment) :
    ((segments.filterMap Segment.var?).zip
      (bindingsFrom position segments)).Pairwise fun earlier later =>
        earlier.2.start + earlier.1.pattern.length ≤ later.2.start := by
  induction segments generalizing position with
  | nil => exact .nil
  | cons segment segments ih =>
      cases segment with
      | plain element => exact ih (position + 1)
      | «variable» var =>
          refine .cons ?_ (ih (position + var.pattern.length))
          rintro ⟨later, binding⟩ hmem
          obtain ⟨before, after, _, rfl⟩ := exists_split_of_mem_zip hmem
          exact Nat.le_add_right _ _

/-! ## What a binding covers -/

theorem Variable.bindingAt_stop_eq_none_iff (var : Variable) (position : Nat) :
    (var.bindingAt position).stop = none ↔
      var.pattern.getLast? = some .rest := by
  simp [bindingAt]

theorem Variable.eq_of_bindingAt_stop {var : Variable} {position stop : Nat}
    (hstop : (var.bindingAt position).stop = some stop) :
    stop = position + var.pattern.length := by
  unfold bindingAt at hstop
  split at hstop
  · simp at hstop
  · exact (Option.some.inj hstop).symm

/-- Where no variable occurs twice, the binding of a variable covers its
elements. -/
theorem Variable.covers_bindingAt {template : Template} {var : Variable}
    {before after : List Segment}
    (hsplit : template.segments = before ++ .variable var :: after)
    (hdistinct : template.vars.Nodup) :
    (var.bindingAt (before.flatMap Segment.elements).length).Covers
      template var := by
  have hflatten : template.flatten = before.flatMap Segment.elements ++
      (var.pattern ++ after.flatMap Segment.elements) := by
    simp [Template.flatten, hsplit]
  have howners : template.owners = before.flatMap Segment.owners ++
      (List.replicate var.pattern.length (some var) ++
        after.flatMap Segment.owners) := by
    simp [Template.owners, hsplit]
  have hvars : template.vars = before.filterMap Segment.var? ++
      var :: after.filterMap Segment.var? := by
    simp [Template.vars, hsplit]
  -- The variable stands in no other place, so it owns nothing there.
  rw [hvars, List.nodup_middle, List.nodup_cons, List.mem_append,
    not_or] at hdistinct
  have hbefore : some var ∉ before.flatMap Segment.owners :=
    fun hmem => hdistinct.1.1 (mem_vars_of_mem_owners hmem)
  have hafter : some var ∉ after.flatMap Segment.owners :=
    fun hmem => hdistinct.1.2 (mem_vars_of_mem_owners hmem)
  refine ⟨rfl, rfl, ?inside, ?window, ?owned,
    var.bindingAt_stop_eq_none_iff _, fun stop => eq_of_bindingAt_stop⟩
  case inside =>
    rw [hflatten, List.length_append, List.length_append, ← Nat.add_assoc]
    exact Nat.le_add_right _ _
  case window =>
    rw [hflatten]
    simp [bindingAt]
  case owned =>
    intro position
    rw [howners, getElem?_block_eq_some_iff hbefore hafter,
      length_flatMap_owners]
    rfl

namespace Template

theorem WellFormed.nodup_vars {template : Template}
    (hgood : template.WellFormed) : template.vars.Nodup :=
  hgood.distinct.of_map _

/-- Every template that is read has one binding for each variable, in the order
of the template.  It covers exactly the elements of its variable, starts no
earlier than the one before it ends, and is left open exactly if the pattern
ends in a `**`, which stands nowhere else in a pattern. -/
theorem parse_bindings_cover {text : String} {template : Template}
    (hparse : parse text = .ok template) :
    List.Forall₂ (Binding.Covers template) template.vars template.bindings ∧
      (template.vars.zip template.bindings).Pairwise (fun earlier later =>
        earlier.2.start + earlier.1.pattern.length ≤ later.2.start) ∧
      ∀ var ∈ template.vars, .rest ∉ var.pattern.dropLast := by
  have hgood : template.WellFormed := parse_wellFormed hparse
  refine ⟨List.forall₂_iff_zip.mpr ⟨?_, ?_⟩, ?_, ?_⟩
  · exact (length_bindingsFrom 0 template.segments).symm
  · intro var binding hmem
    obtain ⟨before, after, hsplit, rfl⟩ := exists_split_of_mem_zip hmem
    rw [Nat.zero_add]
    exact Variable.covers_bindingAt hsplit hgood.nodup_vars
  · exact pairwise_zip_bindingsFrom 0 template.segments
  · exact fun var hvar => (hgood.patterns var hvar).restLast

theorem parse_bindings_cover_with_late_variable :
    ∃ template, parse "/*/{a=x/*}/y/{b.c=x/**}/{d}:go" = .ok template ∧
      template.flatten =
        [.any, .literal "x", .any, .literal "y", .literal "x", .rest, .any] ∧
      template.bindings = [⟨"a", 1, some 3, true⟩, ⟨"b.c", 4, none, true⟩,
        ⟨"d", 6, some 7, false⟩] ∧
      List.Forall₂ (Binding.Covers template) template.vars template.bindings ∧
      (template.vars.zip template.bindings).Pairwise (fun earlier later =>
        earlier.2.start + earlier.1.pattern.length ≤ later.2.start) ∧
      (⟨⟨["b", "c"]⟩, [.literal "x", .rest]⟩ : Variable) ∈ template.vars ∧
      Element.rest ∉ [Element.literal "x", .rest].dropLast := by
  have hparse : parse "/*/{a=x/*}/y/{b.c=x/**}/{d}:go" = .ok ⟨[.plain .any,
      .variable ⟨⟨["a"]⟩, [.literal "x", .any]⟩, .plain (.literal "y"),
      .variable ⟨⟨["b", "c"]⟩, [.literal "x", .rest]⟩,
      .variable ⟨⟨["d"]⟩, [.any]⟩], some "go"⟩ := by
    decide +kernel
  obtain ⟨hcover, hordered, hpatterns⟩ := parse_bindings_cover hparse
  have hvar : (⟨⟨["b", "c"]⟩, [.literal "x", .rest]⟩ : Variable) ∈
      [⟨⟨["a"]⟩, [.literal "x", .any]⟩, ⟨⟨["b", "c"]⟩, [.literal "x", .rest]⟩,
        ⟨⟨["d"]⟩, [.any]⟩] := by
    simp
  exact ⟨_, hparse, rfl, by decide +kernel, hcover, hordered, hvar,
    hpatterns _ hvar⟩

end Template
end HttpRoutes
