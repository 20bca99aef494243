import HttpRoutes.Proofs.Template.Reading
import Mathlib.Data.List.Nodup

/-!
# The grammar of templates

The segments of a template are written one by one, each as a plain element, as
a variable with its pattern, or as a variable without one, which stands for a
variable of one `*`.  Of all segments together the grammar asks two things: no
element is written behind a `**`, and no field path is bound twice.

A reader carries a flag and a list of bound field paths instead.  What it asks
of the segments ahead is stated here for every such state.  It splits into what
is asked of the next segment and what is asked of the others from the next
state on, and in the first state it is what the grammar asks.

The same split shows when a field path is reported to be bound twice: when the
text begins with segments of the grammar the last of which binds a field path
of an earlier one.
-/

namespace HttpRoutes.Template

/-- A segment as it is written. -/
inductive Spelling where
  | plain (element : Element)
  | short (path : FieldPath)
  | long (path : FieldPath) (pattern : List Element)
deriving DecidableEq

namespace Spelling

def chars : Spelling → List Char
  | .plain element => element.chars
  | .short path => '{' :: path.chars ++ ['}']
  | .long path pattern =>
    '{' :: path.chars ++
      '=' :: joinWith '/' (pattern.map Element.chars) ++ ['}']

def segment : Spelling → Segment
  | .plain element => .plain element
  | .short path => .variable ⟨path, [.any]⟩
  | .long path pattern => .variable ⟨path, pattern⟩

/-- The elements that are written out. -/
def written : Spelling → List Element
  | .plain element => [element]
  | .short _ => []
  | .long _ pattern => pattern

def path? : Spelling → Option FieldPath
  | .plain _ => none
  | .short path => some path
  | .long path _ => some path

def Valid : Spelling → Prop
  | .plain element => IsElement element
  | .short path => IsFieldPath path
  | .long path pattern =>
    IsFieldPath path ∧ pattern ≠ [] ∧ ∀ element ∈ pattern, IsElement element

theorem map_path_var? (spelling : Spelling) :
    spelling.segment.var?.map Variable.path = spelling.path? := by
  cases spelling <;> rfl

theorem contains_rest_elements (spelling : Spelling) :
    spelling.segment.elements.contains .rest =
      spelling.written.contains .rest := by
  cases spelling <;> rfl

theorem fresh_iff {bound : List FieldPath} {spelling : Spelling} :
    Fresh bound spelling.segment ↔
      ∀ path, spelling.path? = some path → path ∉ bound := by
  cases spelling <;> simp [Fresh, segment, path?]

theorem mem_addBound_iff {bound : List FieldPath} {spelling : Spelling}
    {path : FieldPath} :
    path ∈ addBound bound spelling.segment ↔
      spelling.path? = some path ∨ path ∈ bound := by
  cases spelling <;> simp [addBound, segment, path?, eq_comm]

end Spelling

def verbChars : Option String → List Char
  | none => []
  | some verb => ':' :: verb.toList

/-- The text is written by the grammar and denotes the template. -/
def IsWritten (text : String) (template : Template) : Prop :=
  text = "/" ∧ template = ⟨[], none⟩ ∨
    ∃ spellings : List Spelling, spellings ≠ [] ∧
      (∀ spelling ∈ spellings, spelling.Valid) ∧
      (∀ verb, template.verb = some verb → IsText verb) ∧
      (template.vars.map Variable.path).Nodup ∧
      .rest ∉ (spellings.flatMap Spelling.written).dropLast ∧
      template.segments = spellings.map Spelling.segment ∧
      text.toList = '/' :: joinWith '/' (spellings.map Spelling.chars) ++
        verbChars template.verb

/-! ## What a state asks of the segments ahead -/

/-- No element is written behind a `**`, nor at all if one has been seen. -/
def RestFinal (restSeen : Bool) (elements : List Element) : Prop :=
  (restSeen = true → elements = []) ∧ .rest ∉ elements.dropLast

theorem restFinal_append_iff {restSeen : Bool} {front tail : List Element} :
    RestFinal restSeen (front ++ tail) ↔
      RestFinal restSeen front ∧
        RestFinal (restSeen || front.contains .rest) tail := by
  unfold RestFinal
  cases tail with
  | nil => simp
  | cons element tail =>
      have hdrop : (front ++ element :: tail).dropLast =
          front ++ (element :: tail).dropLast :=
        List.dropLast_append_of_ne_nil (by simp)
      have hfront : .rest ∉ front → .rest ∉ front.dropLast :=
        fun hnot hmem => hnot (List.dropLast_subset front hmem)
      rw [hdrop, List.mem_append]
      cases restSeen with
      | true => simp
      | false =>
          simp
          tauto

structure Spelled (restSeen : Bool) (bound : List FieldPath)
    (spellings : List Spelling) : Prop where
  valid : ∀ spelling ∈ spellings, spelling.Valid
  restFinal : RestFinal restSeen (spellings.flatMap Spelling.written)
  distinct : (spellings.filterMap Spelling.path?).Nodup
  fresh : ∀ path ∈ spellings.filterMap Spelling.path?, path ∉ bound

theorem spelled_nil (restSeen : Bool) (bound : List FieldPath) :
    Spelled restSeen bound [] := by
  constructor <;> simp [RestFinal]

theorem distinct_and_fresh_cons_iff {bound : List FieldPath}
    {spelling : Spelling} {spellings : List Spelling} :
    (((spelling :: spellings).filterMap Spelling.path?).Nodup ∧
        ∀ path ∈ (spelling :: spellings).filterMap Spelling.path?,
          path ∉ bound) ↔
      Fresh bound spelling.segment ∧
        (spellings.filterMap Spelling.path?).Nodup ∧
        ∀ path ∈ spellings.filterMap Spelling.path?,
          path ∉ addBound bound spelling.segment := by
  simp only [Spelling.fresh_iff, Spelling.mem_addBound_iff, not_or]
  cases hpath : spelling.path? with
  | none => simp [hpath]
  | some path =>
      rw [List.filterMap_cons_some hpath, List.nodup_cons]
      simp only [List.mem_cons, forall_eq_or_imp, Option.some.injEq,
        forall_eq']
      constructor
      · intro hleft
        obtain ⟨⟨hnot, hnodup⟩, hpath, hothers⟩ := hleft
        refine ⟨hpath, hnodup, ?_⟩
        intro other hother
        exact ⟨fun heq => hnot (heq ▸ hother), hothers other hother⟩
      · intro hright
        obtain ⟨hpath, hnodup, hothers⟩ := hright
        exact ⟨⟨fun hmem => (hothers path hmem).1 rfl, hnodup⟩, hpath,
          fun other hother => (hothers other hother).2⟩

theorem spelled_cons_iff {restSeen : Bool} {bound : List FieldPath}
    {spelling : Spelling} {spellings : List Spelling} :
    Spelled restSeen bound (spelling :: spellings) ↔
      spelling.Valid ∧ RestFinal restSeen spelling.written ∧
        Fresh bound spelling.segment ∧
        Spelled (restSeen || spelling.segment.elements.contains .rest)
          (addBound bound spelling.segment) spellings := by
  rw [Spelling.contains_rest_elements]
  constructor
  · intro hspelled
    obtain ⟨hvalid, hothers⟩ := List.forall_mem_cons.mp hspelled.valid
    have hrest := hspelled.restFinal
    rw [List.flatMap_cons, restFinal_append_iff] at hrest
    obtain ⟨hfresh, hnodup, hlater⟩ :=
      distinct_and_fresh_cons_iff.mp ⟨hspelled.distinct, hspelled.fresh⟩
    exact ⟨hvalid, hrest.1, hfresh, hothers, hrest.2, hnodup, hlater⟩
  · intro hparts
    obtain ⟨hvalid, hfirst, hfresh, hspelled⟩ := hparts
    obtain ⟨hnodup, hlater⟩ := distinct_and_fresh_cons_iff.mpr
      ⟨hfresh, hspelled.distinct, hspelled.fresh⟩
    refine ⟨List.forall_mem_cons.mpr ⟨hvalid, hspelled.valid⟩, ?_, hnodup,
      hlater⟩
    rw [List.flatMap_cons, restFinal_append_iff]
    exact ⟨hfirst, hspelled.restFinal⟩

/-! ## Spelled texts are those of the grammar -/

theorem spellsSegment_iff {restSeen : Bool} {segment : Segment}
    {text : List Char} :
    SpellsSegment restSeen segment text ↔
      ∃ spelling : Spelling, spelling.Valid ∧
        RestFinal restSeen spelling.written ∧ segment = spelling.segment ∧
        text = spelling.chars := by
  constructor
  · intro hspelled
    cases hspelled with
    | @plain element hfirst helement =>
        exact ⟨.plain element, helement, ⟨by simp [hfirst], by
          simp [Spelling.written]⟩, rfl, rfl⟩
    | @short path hpath =>
        exact ⟨.short path, hpath, ⟨fun _ => rfl, by
          simp [Spelling.written]⟩, rfl, rfl⟩
    | @long path pattern hfirst hpath hpattern =>
        exact ⟨.long path pattern,
          ⟨hpath, hpattern.nonempty, hpattern.elements⟩,
          ⟨by simp [hfirst], hpattern.restLast⟩, rfl, rfl⟩
  · intro hwritten
    obtain ⟨spelling, hvalid, hrest, rfl, rfl⟩ := hwritten
    cases spelling with
    | plain element =>
        exact .plain (Bool.eq_false_iff.mpr fun hseen =>
          List.cons_ne_nil _ _ (hrest.1 hseen)) hvalid
    | short path => exact .short hvalid
    | long path pattern =>
        obtain ⟨hpath, hne, helements⟩ := hvalid
        exact .long (Bool.eq_false_iff.mpr fun hseen => hne (hrest.1 hseen))
          hpath ⟨hne, helements, hrest.2⟩

theorem Spelling.spellsSegment {restSeen : Bool} {spelling : Spelling}
    (hvalid : spelling.Valid) (hrest : RestFinal restSeen spelling.written) :
    SpellsSegment restSeen spelling.segment spelling.chars :=
  spellsSegment_iff.mpr ⟨spelling, hvalid, hrest, rfl, rfl⟩

theorem spellsSegments_iff {restSeen : Bool} {bound : List FieldPath}
    {segments : List Segment} {text : List Char} :
    SpellsSegments restSeen bound segments text ↔
      ∃ spellings : List Spelling, spellings ≠ [] ∧
        Spelled restSeen bound spellings ∧
        segments = spellings.map Spelling.segment ∧
        text = joinWith '/' (spellings.map Spelling.chars) := by
  constructor
  · intro hspelled
    induction hspelled with
    | @last restSeen bound _ _ hsegment hfresh =>
        obtain ⟨spelling, hvalid, hrest, rfl, rfl⟩ :=
          spellsSegment_iff.mp hsegment
        exact ⟨[spelling], by simp, spelled_cons_iff.mpr
          ⟨hvalid, hrest, hfresh, spelled_nil _ _⟩, rfl, rfl⟩
    | cons hsegment hfresh _ ih =>
        obtain ⟨spelling, hvalid, hrest, rfl, rfl⟩ :=
          spellsSegment_iff.mp hsegment
        obtain ⟨spellings, hne, hspelled, rfl, rfl⟩ := ih
        refine ⟨spelling :: spellings, by simp, spelled_cons_iff.mpr
          ⟨hvalid, hrest, hfresh, hspelled⟩, rfl, ?_⟩
        rw [List.map_cons, joinWith_cons (by simpa using hne)]
  · intro hwritten
    obtain ⟨spellings, hne, hspelled, rfl, rfl⟩ := hwritten
    induction spellings generalizing restSeen bound with
    | nil => contradiction
    | cons spelling spellings ih =>
        obtain ⟨hvalid, hrest, hfresh, hothers⟩ := spelled_cons_iff.mp hspelled
        have hsegment := Spelling.spellsSegment hvalid hrest
        cases spellings with
        | nil => exact .last hsegment hfresh
        | cons other others =>
            have htext : joinWith '/'
                ((spelling :: other :: others).map Spelling.chars) =
                  spelling.chars ++
                    '/' :: joinWith '/' ((other :: others).map Spelling.chars) :=
              joinWith_cons (by simp)
            rw [htext]
            exact .cons hsegment hfresh (ih (by simp) hothers)

theorem spelled_iff {spellings : List Spelling} :
    Spelled false [] spellings ↔
      (∀ spelling ∈ spellings, spelling.Valid) ∧
        (spellings.filterMap Spelling.path?).Nodup ∧
        .rest ∉ (spellings.flatMap Spelling.written).dropLast := by
  constructor
  · intro hspelled
    exact ⟨hspelled.valid, hspelled.distinct, hspelled.restFinal.2⟩
  · intro hparts
    obtain ⟨hvalid, hdistinct, hlast⟩ := hparts
    exact ⟨hvalid, ⟨nofun, hlast⟩, hdistinct, fun _ _ => List.not_mem_nil⟩

theorem map_path_filterMap_var? (spellings : List Spelling) :
    ((spellings.map Spelling.segment).filterMap Segment.var?).map
        Variable.path =
      spellings.filterMap Spelling.path? := by
  rw [List.filterMap_map, List.map_filterMap]
  congr 1
  funext spelling
  exact spelling.map_path_var?

theorem SpellsSegments.isWritten {segments : List Segment} {cs : List Char}
    (hsegments : SpellsSegments false [] segments cs) {text : String}
    {verb : Option String} (hverb : ∀ name, verb = some name → IsText name)
    (htext : text.toList = '/' :: cs ++ verbChars verb) :
    IsWritten text ⟨segments, verb⟩ := by
  obtain ⟨spellings, hne, hspelled, rfl, rfl⟩ :=
    spellsSegments_iff.mp hsegments
  obtain ⟨hvalid, hdistinct, hlast⟩ := spelled_iff.mp hspelled
  refine .inr ⟨spellings, hne, hvalid, hverb, ?_, hlast, rfl, htext⟩
  rw [vars, map_path_filterMap_var?]
  exact hdistinct

theorem spells_iff_isWritten {text : String} {template : Template} :
    Spells template text.toList ↔ IsWritten text template := by
  constructor
  · intro hspelled
    generalize htext : text.toList = cs at hspelled
    cases hspelled with
    | root => exact .inl ⟨String.toList_inj.mp htext, rfl⟩
    | plain hsegments =>
        apply hsegments.isWritten (by simp)
        rw [htext, verbChars, List.append_nil]
    | verb hsegments hverb =>
        apply hsegments.isWritten (by simpa using hverb)
        rw [htext, verbChars]
  · intro hwritten
    obtain ⟨segments, verb⟩ := template
    rcases hwritten with ⟨rfl, hroot⟩ |
      ⟨spellings, hne, hvalid, hverb, hdistinct, hlast, rfl, htext⟩
    · rw [hroot]
      exact .root
    · rw [vars, map_path_filterMap_var?] at hdistinct
      have hsegments := spellsSegments_iff.mpr
        ⟨spellings, hne, spelled_iff.mpr ⟨hvalid, hdistinct, hlast⟩, rfl, rfl⟩
      rw [htext]
      cases verb with
      | none =>
          rw [verbChars, List.append_nil]
          exact .plain hsegments
      | some name => exact .verb hsegments (hverb name rfl)

/-! ## Binding a field path twice -/

theorem readElement_ne_duplicate (restSeen : Bool) (cs : List Char)
    (path : FieldPath) : readElement restSeen cs ≠ .error (.duplicate path) := by
  unfold readElement
  split
  · simp
  · split
    · simp
    · simp
    · simp
    · split <;> simp

theorem readPattern_ne_duplicate (restSeen : Bool) (cs : List Char)
    (path : FieldPath) : readPattern restSeen cs ≠ .error (.duplicate path) := by
  fun_induction readPattern restSeen cs with
  | case1 restSeen cs fault helement =>
      intro heq
      obtain rfl := Except.error.inj heq
      exact readElement_ne_duplicate restSeen cs path helement
  | case2 => simp
  | case3 => simp
  | case4 _ _ _ _ _ _ htail ih =>
      intro heq
      obtain rfl := Except.error.inj heq
      exact ih htail
  | case5 => simp
  | case6 => simp

theorem readName_ne_duplicate (cs : List Char) (path : FieldPath) :
    readName cs ≠ .error (.duplicate path) := by
  cases cs with
  | nil => simp [readName]
  | cons c cs =>
      rw [readName]
      split <;> simp

theorem readNames_ne_duplicate (cs : List Char) (path : FieldPath) :
    readNames cs ≠ .error (.duplicate path) := by
  fun_induction readNames cs with
  | case1 cs fault hname =>
      intro heq
      obtain rfl := Except.error.inj heq
      exact readName_ne_duplicate cs path hname
  | case2 _ _ _ _ _ htail ih =>
      intro heq
      obtain rfl := Except.error.inj heq
      exact ih htail
  | case3 => simp
  | case4 => simp

theorem readVerb_ne_duplicate (cs : List Char) (path : FieldPath) :
    readVerb cs ≠ .error (.duplicate path) := by
  unfold readVerb
  split
  · simp
  · split <;> simp

theorem bindVariable_eq_duplicate_iff {bound : List FieldPath}
    {path other : FieldPath} {pattern : List Element} {tail : List Char} :
    bindVariable bound other pattern tail = .error (.duplicate path) ↔
      other = path ∧ path ∈ bound := by
  unfold bindVariable
  split
  next hmem =>
    simp only [Except.error.injEq, Fault.duplicate.injEq]
    constructor
    · intro heq
      exact ⟨heq, heq ▸ hmem⟩
    · exact And.left
  next hnot =>
    simp only [reduceCtorEq, false_iff]
    intro hboth
    exact hnot (hboth.1 ▸ hboth.2)

/-- A segment that binds a bound field path is read up to its end. -/
theorem readVariable_rebinds {restSeen : Bool} {bound : List FieldPath}
    {cs : List Char} {path : FieldPath}
    (hread : readVariable restSeen bound cs = .error (.duplicate path)) :
    path ∈ bound ∧ ∃ (spelling : Spelling) (tail : List Char),
      spelling.Valid ∧ RestFinal restSeen spelling.written ∧
        spelling.path? = some path ∧ '{' :: cs = spelling.chars ++ tail := by
  unfold readVariable at hread
  split at hread
  next fault hnames =>
    obtain rfl := Except.error.inj hread
    exact absurd hnames (readNames_ne_duplicate cs path)
  next names tail hnames =>
    obtain ⟨hpath, htext⟩ := readNames_spells hnames
    split at hread
    next fault hpattern =>
      obtain rfl := Except.error.inj hread
      exact absurd hpattern (readPattern_ne_duplicate restSeen tail path)
    next pattern left hpattern =>
      obtain ⟨hfirst, hvalid, hothers⟩ := readPattern_spells hpattern
      obtain ⟨rfl, hmem⟩ := bindVariable_eq_duplicate_iff.mp hread
      refine ⟨hmem, .long ⟨names⟩ pattern, left,
        ⟨hpath, hvalid.nonempty, hvalid.elements⟩,
        ⟨by simp [hfirst], hvalid.restLast⟩, rfl, ?_⟩
      rw [htext, hothers, Spelling.chars]
      simp
  next names tail hnames =>
    obtain ⟨hpath, htext⟩ := readNames_spells hnames
    obtain ⟨rfl, hmem⟩ := bindVariable_eq_duplicate_iff.mp hread
    refine ⟨hmem, .short ⟨names⟩, tail, hpath,
      ⟨fun _ => rfl, by simp [Spelling.written]⟩, rfl, ?_⟩
    rw [htext, Spelling.chars]
    simp
  · simp at hread
  · simp at hread

theorem readSegment_eq_duplicate_iff {restSeen : Bool}
    {bound : List FieldPath} {cs : List Char} {path : FieldPath} :
    readSegment restSeen bound cs = .error (.duplicate path) ↔
      path ∈ bound ∧ ∃ (spelling : Spelling) (tail : List Char),
        spelling.Valid ∧ RestFinal restSeen spelling.written ∧
          spelling.path? = some path ∧ cs = spelling.chars ++ tail := by
  constructor
  · intro hread
    unfold readSegment at hread
    split at hread
    · split at hread
      next fault hvariable =>
        obtain rfl := Except.error.inj hread
        exact readVariable_rebinds hvariable
      next => simp at hread
    · split at hread
      next fault helement =>
        obtain rfl := Except.error.inj hread
        exact absurd helement (readElement_ne_duplicate restSeen _ path)
      next => simp at hread
  · intro hwritten
    obtain ⟨hmem, spelling, tail, hvalid, hrest, hpath, rfl⟩ := hwritten
    have hbind (pattern : List Element) (left : List Char) :
        bindVariable bound path pattern left = .error (.duplicate path) :=
      bindVariable_eq_duplicate_iff.mpr ⟨rfl, hmem⟩
    cases spelling with
    | plain element => simp [Spelling.path?] at hpath
    | short other =>
        obtain rfl : other = path := Option.some.inj hpath
        have hvar := readVariable_short hvalid restSeen bound tail
        rw [hbind] at hvar
        simp [readSegment, Spelling.chars, hvar]
    | long other pattern =>
        obtain rfl : other = path := Option.some.inj hpath
        obtain ⟨hother, hne, helements⟩ := hvalid
        have hfirst : restSeen = false :=
          Bool.eq_false_iff.mpr fun hseen => hne (hrest.1 hseen)
        subst hfirst
        have hvar := readVariable_long hother ⟨hne, helements, hrest.2⟩ bound
          tail
        rw [hbind] at hvar
        simp only [List.append_assoc, List.cons_append] at hvar
        simp [readSegment, Spelling.chars, hvar]

/-- The segments of `front` can be read, and `last` binds a path that is bound
by then. -/
structure Rebinds (restSeen : Bool) (bound : List FieldPath) (path : FieldPath)
    (front : List Spelling) (last : Spelling) : Prop where
  spelled : Spelled restSeen bound front
  valid : last.Valid
  restFinal :
    RestFinal (restSeen || (front.flatMap Spelling.written).contains .rest)
      last.written
  path_eq : last.path? = some path
  mem : path ∈ bound ∨ path ∈ front.filterMap Spelling.path?

theorem rebinds_cons_iff {restSeen : Bool} {bound : List FieldPath}
    {path : FieldPath} {spelling last : Spelling} {front : List Spelling} :
    Rebinds restSeen bound path (spelling :: front) last ↔
      spelling.Valid ∧ RestFinal restSeen spelling.written ∧
        Fresh bound spelling.segment ∧
        Rebinds (restSeen || spelling.segment.elements.contains .rest)
          (addBound bound spelling.segment) path front last := by
  have hseen : (restSeen ||
        ((spelling :: front).flatMap Spelling.written).contains .rest) =
      (restSeen || spelling.segment.elements.contains .rest ||
        (front.flatMap Spelling.written).contains .rest) := by
    rw [Spelling.contains_rest_elements, List.flatMap_cons,
      List.contains_append, Bool.or_assoc]
  have hmem : (path ∈ bound ∨
        path ∈ (spelling :: front).filterMap Spelling.path?) ↔
      path ∈ addBound bound spelling.segment ∨
        path ∈ front.filterMap Spelling.path? := by
    rw [Spelling.mem_addBound_iff, List.mem_filterMap, List.mem_filterMap,
      List.exists_mem_cons_iff, ← or_assoc, or_comm (a := path ∈ bound)]
  constructor
  · intro hrebinds
    obtain ⟨hvalid, hrest, hfresh, hspelled⟩ :=
      spelled_cons_iff.mp hrebinds.spelled
    exact ⟨hvalid, hrest, hfresh, hspelled, hrebinds.valid,
      hseen ▸ hrebinds.restFinal, hrebinds.path_eq, hmem.mp hrebinds.mem⟩
  · intro hparts
    obtain ⟨hvalid, hrest, hfresh, hrebinds⟩ := hparts
    exact ⟨spelled_cons_iff.mpr ⟨hvalid, hrest, hfresh, hrebinds.spelled⟩,
      hrebinds.valid, hseen ▸ hrebinds.restFinal, hrebinds.path_eq,
      hmem.mpr hrebinds.mem⟩

theorem rebinds_iff {path : FieldPath} {front : List Spelling}
    {last : Spelling} :
    Rebinds false [] path front last ↔
      (∀ spelling ∈ front ++ [last], spelling.Valid) ∧
        .rest ∉ ((front ++ [last]).flatMap Spelling.written).dropLast ∧
        (front.filterMap Spelling.path?).Nodup ∧ last.path? = some path ∧
        path ∈ front.filterMap Spelling.path? := by
  have hwritten : (front ++ [last]).flatMap Spelling.written =
      front.flatMap Spelling.written ++ last.written := by
    simp
  rw [hwritten]
  constructor
  · intro hrebinds
    have hrest := restFinal_append_iff.mpr
      ⟨hrebinds.spelled.restFinal, hrebinds.restFinal⟩
    refine ⟨?_, hrest.2, hrebinds.spelled.distinct, hrebinds.path_eq,
      hrebinds.mem.resolve_left List.not_mem_nil⟩
    rw [List.forall_mem_append]
    exact ⟨hrebinds.spelled.valid, by simpa using hrebinds.valid⟩
  · intro hparts
    obtain ⟨hvalid, hlast, hdistinct, hpath, hmem⟩ := hparts
    obtain ⟨hfront, hlastValid⟩ := List.forall_mem_append.mp hvalid
    have hrest : RestFinal false
        (front.flatMap Spelling.written ++ last.written) :=
      ⟨nofun, hlast⟩
    obtain ⟨hrestFront, hrestLast⟩ := restFinal_append_iff.mp hrest
    exact ⟨⟨hfront, hrestFront, hdistinct, fun _ _ => List.not_mem_nil⟩,
      hlastValid last (by simp), hrestLast, hpath, .inr hmem⟩

theorem readSegments_eq_error_of_segment {restSeen : Bool}
    {bound : List FieldPath} {cs : List Char} {fault : Fault}
    (hsegment : readSegment restSeen bound cs = .error fault) :
    readSegments restSeen bound cs = .error fault := by
  rw [readSegments]
  split <;> simp_all

theorem readSegments_eq_error_of_tail {restSeen : Bool}
    {bound : List FieldPath} {cs tail : List Char} {segment : Segment}
    {fault : Fault}
    (hsegment : readSegment restSeen bound cs = .ok (segment, '/' :: tail))
    (htail : readSegments (restSeen || segment.elements.contains .rest)
      (addBound bound segment) tail = .error fault) :
    readSegments restSeen bound cs = .error fault := by
  rw [readSegments]
  split <;> simp_all

theorem readSegments_eq_duplicate_iff {restSeen : Bool}
    {bound : List FieldPath} {cs : List Char} {path : FieldPath} :
    readSegments restSeen bound cs = .error (.duplicate path) ↔
      ∃ front last tail, Rebinds restSeen bound path front last ∧
        cs = joinWith '/' ((front ++ [last]).map Spelling.chars) ++ tail := by
  constructor
  · intro hread
    fun_induction readSegments restSeen bound cs with
    | case1 restSeen bound cs fault hsegment =>
        obtain rfl := Except.error.inj hread
        obtain ⟨hmem, last, tail, hvalid, hrest, hpath, rfl⟩ :=
          readSegment_eq_duplicate_iff.mp hsegment
        refine ⟨[], last, tail, ⟨spelled_nil _ _, hvalid, ?_, hpath,
          .inl hmem⟩, rfl⟩
        simpa using hrest
    | case2 restSeen bound cs segment tail hsegment fault htail ih =>
        obtain rfl := Except.error.inj hread
        obtain ⟨hfresh, text, rfl, hspelled⟩ := readSegment_spells hsegment
        obtain ⟨spelling, hvalid, hrest, rfl, rfl⟩ :=
          spellsSegment_iff.mp hspelled
        obtain ⟨front, last, left, hrebinds, rfl⟩ := ih htail
        refine ⟨spelling :: front, last, left, rebinds_cons_iff.mpr
          ⟨hvalid, hrest, hfresh, hrebinds⟩, ?_⟩
        rw [List.cons_append, List.map_cons, joinWith_cons (by simp)]
        simp
    | case3 => simp at hread
    | case4 => simp at hread
    | case5 => simp at hread
    | case6 => simp at hread
    | case7 => simp at hread
  · intro hwritten
    obtain ⟨front, last, tail, hrebinds, rfl⟩ := hwritten
    induction front generalizing restSeen bound with
    | nil =>
        have hrest := hrebinds.restFinal
        rw [List.flatMap_nil, List.contains_nil, Bool.or_false] at hrest
        apply readSegments_eq_error_of_segment
        apply readSegment_eq_duplicate_iff.mpr
        exact ⟨hrebinds.mem.resolve_right List.not_mem_nil, last, tail,
          hrebinds.valid, hrest, hrebinds.path_eq, rfl⟩
    | cons spelling front ih =>
        obtain ⟨hvalid, hrest, hfresh, hothers⟩ :=
          rebinds_cons_iff.mp hrebinds
        rw [List.cons_append, List.map_cons, joinWith_cons (by simp),
          List.append_assoc, List.cons_append]
        have hsegment := Spelling.spellsSegment hvalid hrest
        exact readSegments_eq_error_of_tail
          (hsegment.readSegment_eq hfresh (by simp)) (ih hothers)

/-- The first of the segments read is not empty, and no verb starts there. -/
theorem Rebinds.exists_cons {bound : List FieldPath} {path : FieldPath}
    {front : List Spelling} {last : Spelling}
    (hrebinds : Rebinds false bound path front last) :
    ∃ c cs, joinWith '/' ((front ++ [last]).map Spelling.chars) = c :: cs ∧
      c ≠ ':' := by
  cases front with
  | nil =>
      have hsegment := Spelling.spellsSegment hrebinds.valid hrebinds.restFinal
      exact hsegment.exists_cons
  | cons spelling front =>
      obtain ⟨hvalid, hrest, _, _⟩ := rebinds_cons_iff.mp hrebinds
      obtain ⟨c, cs, hchars, hc⟩ :=
        (Spelling.spellsSegment hvalid hrest).exists_cons
      rw [List.cons_append, List.map_cons, joinWith_cons (by simp), hchars]
      exact ⟨c, _, rfl, hc⟩

theorem readTemplate_eq_duplicate_iff {cs : List Char} {path : FieldPath} :
    readTemplate cs = .error (.duplicate path) ↔
      ∃ front last tail, Rebinds false [] path front last ∧
        cs = '/' :: joinWith '/' ((front ++ [last]).map Spelling.chars) ++
          tail := by
  constructor
  · intro hread
    unfold readTemplate at hread
    split at hread
    · simp at hread
    · simp at hread
    · split at hread
      next fault hsegments =>
        obtain rfl := Except.error.inj hread
        obtain ⟨front, last, tail, hrebinds, rfl⟩ :=
          readSegments_eq_duplicate_iff.mp hsegments
        exact ⟨front, last, tail, hrebinds, rfl⟩
      next verb _ =>
        split at hread
        next fault hverb =>
          obtain rfl := Except.error.inj hread
          exact absurd hverb (readVerb_ne_duplicate verb path)
        next => simp at hread
      next => simp at hread
    · simp at hread
  · intro hwritten
    obtain ⟨front, last, tail, hrebinds, rfl⟩ := hwritten
    have hread := readSegments_eq_duplicate_iff.mpr
      ⟨front, last, tail, hrebinds, rfl⟩
    obtain ⟨c, cs, hchars, hc⟩ := hrebinds.exists_cons
    rw [hchars] at hread ⊢
    simp only [List.cons_append] at hread ⊢
    simp [readTemplate, hc, hread]

/-- A text is read as the template that it is written for.  All other texts are
refused, and one is refused for a field path that is bound twice exactly if it
begins with segments of the grammar the last of which binds a field path of an
earlier one again. -/
theorem parse_eq_iff_grammar (text : String) :
    (∀ template, parse text = .ok template ↔ IsWritten text template) ∧
      ((∃ template, IsWritten text template) ∨
        ∃ error, parse text = .error error) ∧
      ∀ (spelled : String) (path : FieldPath),
        parse text = .error (.duplicateVariable spelled path) ↔
          spelled = text ∧ ∃ (front : List Spelling) (last : Spelling)
              (tail : List Char),
            (∀ spelling ∈ front ++ [last], spelling.Valid) ∧
            .rest ∉ ((front ++ [last]).flatMap Spelling.written).dropLast ∧
            (front.filterMap Spelling.path?).Nodup ∧
            last.path? = some path ∧
            path ∈ front.filterMap Spelling.path? ∧
            text.toList =
              '/' :: joinWith '/' ((front ++ [last]).map Spelling.chars) ++
                tail := by
  refine ⟨?_, ?_, ?_⟩
  · intro template
    rw [parse_eq_ok_iff, spells_iff_isWritten]
  · cases hparse : parse text with
    | error error => exact .inr ⟨error, rfl⟩
    | ok template =>
        exact .inl ⟨template,
          spells_iff_isWritten.mp (parse_eq_ok_iff.mp hparse)⟩
  · intro spelled path
    have hread : parse text = .error (.duplicateVariable spelled path) ↔
        spelled = text ∧
          readTemplate text.toList = .error (.duplicate path) := by
      unfold parse
      cases readTemplate text.toList with
      | ok template => simp
      | error fault =>
          cases fault with
          | malformed reason remaining => simp
          | duplicate other => simp [eq_comm]
    simp only [hread, readTemplate_eq_duplicate_iff, rebinds_iff, and_assoc]

end HttpRoutes.Template
