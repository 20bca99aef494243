import HttpRoutes.Proofs.Projection.Occurrence

/-!
# What a renaming changes

All names are looked for in the text as it was given, so each has one place or
none.  Of places that overlap one is chosen, and the chosen ones are replaced
while everything between and around them stays.

Two places that begin together have different lengths, because the text there
tells the name.  So the order in which places are considered does not depend on
the order in which the renaming lists its names.
-/

namespace HttpRoutes.Projection

/-- What a name is renamed to.  Later pairs count more than earlier ones. -/
def target? (pairs : List (String × String)) (name : String) : Option String :=
  pairs.reverse.lookup name

/-- `edit` renames a name at the place where it is found. -/
def IsLocated (pairs : List (String × String)) (text : String) (edit : Edit) :
    Prop :=
  ∃ name target, name ≠ "" ∧ target? pairs name = some target ∧
    nameOffset? name.toList 0 none 0 text.toList = some edit.offset ∧
    edit.source = name.toList ∧ edit.target = target.toList

/-- `result` is `text` with the sources of the edits replaced by their targets.
The first character of `text` has the offset `start`. -/
inductive Replaced : List Edit → Nat → List Char → List Char → Prop where
  | nil (start : Nat) (text : List Char) : Replaced [] start text text
  | cons {edit : Edit} {edits : List Edit} {start : Nat}
      {gap text result : List Char} (hoffset : start + gap.length = edit.offset)
      (hothers : Replaced edits edit.stop text result) :
      Replaced (edit :: edits) start (gap ++ (edit.source ++ text))
        (gap ++ (edit.target ++ result))

/-- The edits that are not left out for beginning before `copied`. -/
def keptEdits (copied : Nat) : List Edit → List Edit
  | [] => []
  | edit :: edits =>
    if edit.offset < copied then keptEdits copied edits
    else edit :: keptEdits edit.stop edits

def locatedEdits (pairs : List (String × String)) (text : String) : List Edit :=
  (dedupNames pairs).filterMap (edit? text.toList)

/-- Of the places where names are found, from left to right, those that are
replaced. -/
def chosenEdits (pairs : List (String × String)) (text : String) : List Edit :=
  keptEdits 0 ((locatedEdits pairs text).mergeSort Edit.precedes)

/-! ## Renamings -/

theorem target?_cons (pair : String × String) (pairs : List (String × String))
    (name : String) :
    target? (pair :: pairs) name =
      (target? pairs name).or (if name = pair.1 then some pair.2 else none) := by
  rw [target?, List.reverse_cons, List.lookup_append, target?]
  congr 1
  by_cases hname : name = pair.1
  · rw [if_pos hname, hname, List.lookup_cons_self]
  · have hneq : (name == pair.1) = false := by simpa using hname
    rw [if_neg hname, List.lookup_cons, hneq, List.lookup_nil]

theorem target?_eq_none_iff {pairs : List (String × String)} {name : String} :
    target? pairs name = none ↔ ∀ pair ∈ pairs, pair.1 ≠ name := by
  induction pairs with
  | nil => simp [target?]
  | cons pair pairs ih =>
      rw [target?_cons, Option.or_eq_none_iff, ih, List.forall_mem_cons, and_comm]
      simp [eq_comm]

theorem any_iff_target?_ne_none {pairs : List (String × String)} {name : String} :
    (pairs.any fun pair => pair.1 = name) = true ↔ target? pairs name ≠ none := by
  simp [target?_eq_none_iff]

theorem mem_dedupNames_iff {pairs : List (String × String)}
    {name target : String} :
    (name, target) ∈ dedupNames pairs ↔ target? pairs name = some target := by
  induction pairs with
  | nil => simp [dedupNames, target?]
  | cons pair pairs ih =>
      obtain ⟨source, first⟩ := pair
      rw [target?_cons, dedupNames]
      split
      next hlater =>
        rw [any_iff_target?_ne_none] at hlater
        by_cases hname : name = source
        · obtain ⟨last, hlast⟩ := Option.ne_none_iff_exists'.mp hlater
          rw [ih, hname, hlast, Option.some_or]
        · rw [ih, if_neg hname, Option.or_none]
      next hlast =>
        rw [any_iff_target?_ne_none, Classical.not_not] at hlast
        by_cases hname : name = source
        · have hnot : (name, target) ∉ dedupNames pairs := by
            rw [ih, hname, hlast]
            simp
          rw [hname] at hnot ⊢
          simp [hnot, hlast, eq_comm]
        · rw [List.mem_cons, ih, if_neg hname, Option.or_none]
          simp [hname]

theorem nodup_dedupNames (pairs : List (String × String)) :
    (dedupNames pairs).Nodup := by
  induction pairs with
  | nil => simp [dedupNames]
  | cons pair pairs ih =>
      obtain ⟨source, first⟩ := pair
      rw [dedupNames]
      split
      next => exact ih
      next hlast =>
        rw [any_iff_target?_ne_none, Classical.not_not] at hlast
        refine List.nodup_cons.mpr ⟨?_, ih⟩
        rw [mem_dedupNames_iff, hlast]
        simp

/-- Renamings that rename every name alike list the same pairs. -/
theorem perm_dedupNames {pairs others : List (String × String)}
    (hsame : ∀ name, target? others name = target? pairs name) :
    List.Perm (dedupNames others) (dedupNames pairs) := by
  rw [List.perm_ext_iff_of_nodup (nodup_dedupNames others)
    (nodup_dedupNames pairs)]
  rintro ⟨name, target⟩
  rw [mem_dedupNames_iff, mem_dedupNames_iff, hsame]

/-! ## Places of names -/

theorem mem_locatedEdits_iff {pairs : List (String × String)} {text : String}
    {edit : Edit} : edit ∈ locatedEdits pairs text ↔ IsLocated pairs text edit := by
  rw [locatedEdits, List.mem_filterMap]
  constructor
  · rintro ⟨⟨name, target⟩, hmem, hedit⟩
    rw [mem_dedupNames_iff] at hmem
    rw [edit?] at hedit
    split at hedit
    next => contradiction
    next hne =>
      obtain ⟨offset, hoffset, rfl⟩ := Option.map_eq_some_iff.mp hedit
      refine ⟨name, target, ?_, hmem, hoffset, rfl, rfl⟩
      rintro rfl
      exact hne rfl
  · rintro ⟨name, target, hname, htarget, hoffset, hsource, hnew⟩
    obtain ⟨offset, source, new⟩ := edit
    subst hsource hnew
    refine ⟨(name, target), mem_dedupNames_iff.mpr htarget, ?_⟩
    simp [edit?, hname, hoffset]

variable {pairs : List (String × String)} {text : String} {edit other : Edit}

theorem IsLocated.standsAt (hedit : IsLocated pairs text edit) :
    StandsAt opening closing edit.source text.toList edit.offset := by
  obtain ⟨name, target, hname, _, hoffset, hsource, _⟩ := hedit
  rw [hsource]
  exact standsAt_of_nameOffset? (by simpa using hname) hoffset

theorem IsLocated.source_ne_nil (hedit : IsLocated pairs text edit) :
    edit.source ≠ [] := by
  obtain ⟨name, _, hname, _, _, hsource, _⟩ := hedit
  simpa [hsource] using hname

/-- Places that begin and end together are of one name. -/
theorem IsLocated.eq_of_offset_eq (hedit : IsLocated pairs text edit)
    (hother : IsLocated pairs text other) (hoffset : edit.offset = other.offset)
    (hlength : edit.source.length = other.source.length) : edit = other := by
  have hsource : edit.source = other.source := by
    have hbegins := (occursAt_iff hedit.source_ne_nil).mp hedit.standsAt.occursAt
    have hother := (occursAt_iff hother.source_ne_nil).mp hother.standsAt.occursAt
    rw [hoffset] at hbegins
    exact (List.prefix_of_prefix_length_le hbegins hother
      (Nat.le_of_eq hlength)).eq_of_length hlength
  obtain ⟨name, target, _, htarget, _, hname, hnew⟩ := hedit
  obtain ⟨name', target', _, htarget', _, hname', hnew'⟩ := hother
  have hnames : name = name' := by
    rw [hname, hname'] at hsource
    exact String.toList_inj.mp hsource
  rw [hnames, htarget'] at htarget
  obtain ⟨offset, source, new⟩ := edit
  obtain ⟨offset', source', new'⟩ := other
  subst hnew hnew'
  simp_all

/-! ## The order of edits -/

theorem precedes_iff :
    edit.precedes other = true ↔ edit.offset < other.offset ∨
      edit.offset = other.offset ∧ other.source.length ≤ edit.source.length := by
  simp [Edit.precedes]

theorem pairwise_mergeSort_precedes (edits : List Edit) :
    (edits.mergeSort Edit.precedes).Pairwise fun a b => a.precedes b = true := by
  apply List.pairwise_mergeSort
  · intro a b c hab hbc
    rw [precedes_iff] at hab hbc ⊢
    omega
  · intro a b
    rw [Bool.or_eq_true, precedes_iff, precedes_iff]
    omega

theorem mem_sortedEdits_iff :
    edit ∈ (locatedEdits pairs text).mergeSort Edit.precedes ↔
      IsLocated pairs text edit := by
  rw [List.mem_mergeSort, mem_locatedEdits_iff]

/-- The order of edits does not depend on how the renaming is written down. -/
theorem mergeSort_locatedEdits_eq {others : List (String × String)}
    (hsame : ∀ name, target? others name = target? pairs name) :
    (locatedEdits others text).mergeSort Edit.precedes =
      (locatedEdits pairs text).mergeSort Edit.precedes := by
  have hperm : List.Perm (locatedEdits others text) (locatedEdits pairs text) :=
    (perm_dedupNames hsame).filterMap _
  refine List.Perm.eq_of_pairwise ?_
    (pairwise_mergeSort_precedes _) (pairwise_mergeSort_precedes _)
    ((List.mergeSort_perm _ _).trans (hperm.trans (List.mergeSort_perm _ _).symm))
  intro a b ha hb hab hba
  rw [List.mem_mergeSort, hperm.mem_iff, mem_locatedEdits_iff] at ha
  rw [mem_sortedEdits_iff] at hb
  rw [precedes_iff] at hab hba
  exact ha.eq_of_offset_eq hb (by omega) (by omega)

/-! ## Choosing and replacing -/

theorem rename_eq (pairs : List (String × String)) (text : String) :
    rename pairs text = String.ofList (applyEdits text.toList 0
      ((locatedEdits pairs text).mergeSort Edit.precedes)) := rfl

theorem keptEdits_spec (copied : Nat) (edits : List Edit) :
    (∀ edit ∈ keptEdits copied edits, edit ∈ edits ∧ copied ≤ edit.offset) ∧
      (keptEdits copied edits).Pairwise fun a b => a.stop ≤ b.offset := by
  induction edits generalizing copied with
  | nil => simp [keptEdits]
  | cons edit edits ih =>
      rw [keptEdits]
      split
      next =>
        obtain ⟨hmem, hpairwise⟩ := ih copied
        refine ⟨?_, hpairwise⟩
        intro other hother
        exact ⟨List.mem_cons_of_mem _ (hmem other hother).1, (hmem other hother).2⟩
      next hle =>
        obtain ⟨hmem, hpairwise⟩ := ih edit.stop
        have hstop : edit.offset ≤ edit.stop := Nat.le_add_right _ _
        refine ⟨?_, List.pairwise_cons.mpr ⟨fun other hother =>
          (hmem other hother).2, hpairwise⟩⟩
        intro other hother
        rcases List.mem_cons.mp hother with rfl | hother
        · exact ⟨List.mem_cons_self, by omega⟩
        · have hbound := hmem other hother
          exact ⟨List.mem_cons_of_mem _ hbound.1, by omega⟩

/-- An edit is left out only if a kept one that precedes it reaches into it. -/
theorem mem_keptEdits_or_overlapped (copied : Nat) {edits : List Edit}
    (hsorted : edits.Pairwise fun a b => a.precedes b = true)
    (hmem : edit ∈ edits) :
    edit ∈ keptEdits copied edits ∨ edit.offset < copied ∨
      ∃ winner ∈ keptEdits copied edits,
        winner.precedes edit = true ∧ edit.offset < winner.stop := by
  induction edits generalizing copied with
  | nil => simp at hmem
  | cons first edits ih =>
      obtain ⟨hfirst, hsorted⟩ := List.pairwise_cons.mp hsorted
      rw [keptEdits]
      split
      next hskipped =>
        rcases List.mem_cons.mp hmem with rfl | hmem
        · exact .inr (.inl hskipped)
        · exact ih copied hsorted hmem
      next =>
        rcases List.mem_cons.mp hmem with rfl | hmem
        · exact .inl List.mem_cons_self
        · rcases ih first.stop hsorted hmem with
            hkept | hreach | ⟨winner, hwinner, hbeats⟩
          · exact .inl (List.mem_cons_of_mem _ hkept)
          · exact .inr (.inr ⟨first, List.mem_cons_self, hfirst edit hmem, hreach⟩)
          · exact .inr (.inr ⟨winner, List.mem_cons_of_mem _ hwinner, hbeats⟩)

/-- Applying edits replaces the kept ones. -/
theorem applyEdits_replaced {text : List Char} {copied : Nat}
    (hcopied : copied ≤ text.length) {edits : List Edit}
    (hoccurs : ∀ edit ∈ edits, OccursAt edit.source text edit.offset) :
    Replaced (keptEdits copied edits) copied (text.drop copied)
      (applyEdits text copied edits) := by
  -- The induction follows the copying; what is copied already is `text` up to
  -- `copied`.
  induction edits generalizing copied with
  | nil => exact .nil copied _
  | cons edit edits ih =>
      obtain ⟨hedit, hlater⟩ := List.forall_mem_cons.mp hoccurs
      rw [keptEdits, applyEdits]
      split
      next => exact ih hcopied hlater
      next hle =>
        obtain ⟨front, back, htext, hfront⟩ := hedit
        have hlength := congrArg List.length htext
        rw [List.length_append, List.length_append] at hlength
        have hstop : text.drop edit.stop = back := by
          rw [htext, Edit.stop, ← hfront, ← List.length_append,
            ← List.append_assoc, List.drop_left]
        have hgap : text.drop copied =
            (text.drop copied).take (edit.offset - copied) ++
              (edit.source ++ text.drop edit.stop) := by
          rw [hstop, htext, List.drop_append_of_le_length (by omega),
            List.take_append_of_le_length (by simp; omega),
            List.take_of_length_le (by simp; omega)]
        have hinside : edit.stop ≤ text.length := by
          rw [Edit.stop]
          omega
        have hothers := ih hinside hlater
        have hoffset : copied +
            ((text.drop copied).take (edit.offset - copied)).length =
              edit.offset := by
          rw [List.length_take, List.length_drop]
          omega
        have hreplaced := Replaced.cons hoffset hothers
        rw [← hgap] at hreplaced
        rwa [List.append_assoc]

theorem Replaced.eq_of_targets {edits : List Edit} {start : Nat}
    {text result : List Char} (hreplaced : Replaced edits start text result)
    (htargets : ∀ edit ∈ edits, edit.target = edit.source) : result = text := by
  induction hreplaced with
  | nil => rfl
  | cons _ _ ih =>
      obtain ⟨hfirst, hothers⟩ := List.forall_mem_cons.mp htargets
      rw [hfirst, ih hothers]

/-- The edits that a renaming applies. -/
theorem chosenEdits_spec (pairs : List (String × String)) (text : String) :
    (∀ edit ∈ chosenEdits pairs text, IsLocated pairs text edit) ∧
      (chosenEdits pairs text).Pairwise (fun a b => a.stop ≤ b.offset) ∧
      Replaced (chosenEdits pairs text) 0 text.toList
        (rename pairs text).toList := by
  obtain ⟨hkept, hpairwise⟩ := keptEdits_spec 0
    ((locatedEdits pairs text).mergeSort Edit.precedes)
  refine ⟨fun edit hmem => mem_sortedEdits_iff.mp (hkept edit hmem).1, hpairwise,
    ?_⟩
  rw [rename_eq, String.toList_ofList]
  exact applyEdits_replaced (Nat.zero_le _)
    fun edit hmem => (mem_sortedEdits_iff.mp hmem).standsAt.occursAt

/-- A renaming replaces some of the places where its names are found.  These do
not overlap, everything else stays, and a place that is left out overlaps one of
them that begins earlier, or with it and is longer.  The result is the same for
all lists of pairs that rename every name alike, and a renaming of names to
themselves changes nothing. -/
theorem rename_replaces_located (pairs : List (String × String)) (text : String) :
    ∃ kept : List Edit,
      (∀ edit ∈ kept, IsLocated pairs text edit) ∧
      kept.Pairwise (fun a b => a.stop ≤ b.offset) ∧
      Replaced kept 0 text.toList (rename pairs text).toList ∧
      (∀ edit, IsLocated pairs text edit → edit ∈ kept ∨
        ∃ winner ∈ kept, edit.offset < winner.stop ∧
          (winner.offset < edit.offset ∨ winner.offset = edit.offset ∧
            edit.source.length < winner.source.length)) ∧
      (∀ edit ∈ kept,
        String.Pos.Raw.IsValid text ⟨Text.byteOffset text edit.offset⟩ ∧
          String.Pos.Raw.IsValid text ⟨Text.byteOffset text edit.offset +
            Template.byteLength edit.source⟩) ∧
      (∀ others, (∀ name, target? others name = target? pairs name) →
        rename others text = rename pairs text) ∧
      ((∀ name target, target? pairs name = some target → target = name) →
        rename pairs text = text) := by
  obtain ⟨hlocated, hpairwise, hreplaced⟩ := chosenEdits_spec pairs text
  refine ⟨chosenEdits pairs text, hlocated, hpairwise, hreplaced, ?_, ?_, ?_, ?_⟩
  · intro edit hedit
    rcases mem_keptEdits_or_overlapped 0
      (pairwise_mergeSort_precedes _) (mem_sortedEdits_iff.mpr hedit) with
        hmem | hlt | ⟨winner, hwinner, hprecedes, hreach⟩
    · exact .inl hmem
    · omega
    · by_cases hsame : edit = winner
      · exact .inl (hsame ▸ hwinner)
      · have hdiffer (hoffset : winner.offset = edit.offset) :
            edit.source.length ≠ winner.source.length :=
          fun hlength => hsame (hedit.eq_of_offset_eq (hlocated winner hwinner)
            hoffset.symm hlength)
        rw [precedes_iff] at hprecedes
        exact .inr ⟨winner, hwinner, hreach, by omega⟩
  · intro edit hmem
    rw [← (hlocated edit hmem).standsAt.occursAt.byteOffset_add]
    exact ⟨Text.isValid_byteOffset _ _, Text.isValid_byteOffset _ _⟩
  · intro others hsame
    rw [rename_eq, rename_eq, mergeSort_locatedEdits_eq hsame]
  · intro hsame
    apply String.toList_inj.mp
    apply hreplaced.eq_of_targets
    intro edit hmem
    obtain ⟨name, target, _, htarget, _, hsource, hnew⟩ := hlocated edit hmem
    rw [hsource, hnew, hsame name target htarget]

example : rename [("a", "z"), ("a.b", "ab"), ("b", "y")] "/v1/{a.b}/{b}" =
    "/v1/{ab}/{b}" := by
  cbv

end HttpRoutes.Projection
