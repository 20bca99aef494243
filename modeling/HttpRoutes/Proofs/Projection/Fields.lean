import HttpRoutes.Proofs.Projection.Rename
import HttpRoutes.Proofs.Template.Parts
import Mathlib.Data.List.Forall2

/-!
# Which parts of a template a renaming changes

The names of a renaming are dotted, so they hold no delimiter of a template, and
what is replaced lies within one part of its text.  A delimiter is never
replaced.  A word can be: a name is told by the characters around it, and a dot
before it may belong to a literal or a verb as well as to a field path.  That is
all that can happen to a word, and so a renaming keeps to the field paths
wherever no word holds a dot with one of its names behind.
-/

namespace HttpRoutes.Projection

open Template

/-- Names joined by dots. -/
def IsDotted (name : String) : Prop :=
  ∃ path : FieldPath, IsFieldPath path ∧ name.toList = path.chars

/-- The edit is in a word that begins at `start`: there is a dot in front of it, and
a dot, a `=` or the end of the word behind. -/
def IsBehindDot (start : Nat) (word : List Char) (edit : Edit) : Prop :=
  ∃ front back, word = front ++ '.' :: (edit.source ++ back) ∧
    start + front.length + 1 = edit.offset ∧
    ∀ c ∈ back.head?, c = '.' ∨ c = '='

/-- What becomes of a part whose first character has the offset `start`. -/
inductive PartRenamed (pairs : List (String × String)) (text : String)
    (start : Nat) : Part → Part → Prop where
  | mark (c : Char) : PartRenamed pairs text start (.mark c) (.mark c)
  | field {edits : List Edit} {path result : List Char}
      (hreplaced : Replaced edits start path result)
      (hedits : ∀ edit ∈ edits, IsLocated pairs text edit) :
      PartRenamed pairs text start (.field path) (.field result)
  | word {edits : List Edit} {word result : List Char}
      (hreplaced : Replaced edits start word result)
      (hedits : ∀ edit ∈ edits, IsLocated pairs text edit ∧
        IsBehindDot start word edit) :
      PartRenamed pairs text start (.word word) (.word result)

inductive PartsRenamed (pairs : List (String × String)) (text : String) :
    Nat → List Part → List Part → Prop where
  | nil (start : Nat) : PartsRenamed pairs text start [] []
  | cons {start : Nat} {part result : Part} {parts results : List Part}
      (hpart : PartRenamed pairs text start part result)
      (hothers : PartsRenamed pairs text (start + part.chars.length) parts
        results) :
      PartsRenamed pairs text start (part :: parts) (result :: results)

/-- Nothing but the text of a field path may differ. -/
def SameButField : Part → Part → Prop
  | .field _, .field _ => True
  | part, other => part = other

/-! ## Edits within a part -/

/-- Where no edit reaches across a boundary, both sides are replaced on their
own. -/
theorem Replaced.split {edits : List Edit} {start : Nat} {front back : List Char}
    {result : List Char} (hreplaced : Replaced edits start (front ++ back) result)
    (hedits : ∀ edit ∈ edits, edit.stop ≤ start + front.length ∨
      start + front.length ≤ edit.offset) :
    ∃ edits₁ edits₂ result₁ result₂, edits = edits₁ ++ edits₂ ∧
      result = result₁ ++ result₂ ∧ Replaced edits₁ start front result₁ ∧
      Replaced edits₂ (start + front.length) back result₂ := by
  generalize htext : front ++ back = text at hreplaced
  induction hreplaced generalizing front with
  | nil start text =>
      exact ⟨[], [], front, back, rfl, htext.symm, .nil start front,
        .nil _ back⟩
  | @cons edit edits start gap text result hoffset hothers ih =>
      obtain ⟨hedit, hlater⟩ := List.forall_mem_cons.mp hedits
      rcases hedit with hbefore | hbehind
      · rw [Edit.stop] at hbefore
        rw [← List.append_assoc] at htext
        obtain ⟨middle, rfl, rfl⟩ := exists_append_of_length_le htext (by
          rw [List.length_append]
          omega)
        have hboundary : edit.stop + middle.length =
            start + (gap ++ edit.source ++ middle).length := by
          simp only [Edit.stop, List.length_append]
          omega
        obtain ⟨edits₁, edits₂, result₁, result₂, rfl, rfl, hfront, hback⟩ :=
          ih (by rwa [hboundary]) rfl
        refine ⟨edit :: edits₁, edits₂, gap ++ (edit.target ++ result₁), result₂,
          rfl, by simp, ?_, ?_⟩
        · rw [List.append_assoc]
          exact .cons hoffset hfront
        · rwa [← hboundary]
      · obtain ⟨middle, rfl, rfl⟩ := exists_append_of_length_le htext.symm
          (by omega)
        refine ⟨[], edit :: edits, front, middle ++ (edit.target ++ result), rfl,
          by simp, .nil start front, .cons ?_ hothers⟩
        rw [List.length_append] at hoffset
        omega

/-- An edit that is applied stands in the text. -/
theorem Replaced.exists_source {edits : List Edit} {start : Nat}
    {text result : List Char} (hreplaced : Replaced edits start text result)
    {edit : Edit} (hmem : edit ∈ edits) :
    ∃ front back, text = front ++ (edit.source ++ back) ∧
      start + front.length = edit.offset := by
  induction hreplaced with
  | nil => simp at hmem
  | @cons first edits start gap text result hoffset hothers ih =>
      rcases List.mem_cons.mp hmem with rfl | hmem
      · exact ⟨gap, text, rfl, hoffset⟩
      · obtain ⟨front, back, rfl, hfront⟩ := ih hmem
        refine ⟨gap ++ (first.source ++ front), back, by simp, ?_⟩
        rw [Edit.stop] at hfront
        simp only [List.length_append]
        omega

theorem Replaced.eq_of_forall_not_mem {edits : List Edit} {start : Nat}
    {text result : List Char} (hreplaced : Replaced edits start text result)
    (hnone : ∀ edit, edit ∉ edits) : result = text := by
  cases hreplaced with
  | nil => rfl
  | cons => exact absurd List.mem_cons_self (hnone _)

/-- An occurrence that reaches across a boundary holds the characters on both sides
of it. -/
theorem OccursAt.mem_of_across {name front back : List Char} {offset : Nat}
    (hoccurs : OccursAt name (front ++ back) offset)
    (hstart : offset < front.length) (hstop : front.length < offset + name.length) :
    (∃ c ∈ front.getLast?, c ∈ name) ∧ ∃ c ∈ back.head?, c ∈ name := by
  obtain ⟨before, after, htext, rfl⟩ := hoccurs
  obtain ⟨middle, rfl, hrest⟩ := exists_append_of_length_le htext
    (Nat.le_of_lt hstart)
  rw [List.length_append] at hstart hstop
  obtain ⟨later, rfl, rfl⟩ := exists_append_of_length_le hrest (by omega)
  have hmiddle : middle ≠ [] := by
    rintro rfl
    simp at hstart
  have hlater : later ≠ [] := by
    rintro rfl
    simp at hstop
  refine ⟨⟨middle.getLast hmiddle, ?_, ?_⟩, ⟨later.head hlater, ?_, ?_⟩⟩
  · simp [List.getLast?_append, List.getLast?_eq_some_getLast hmiddle]
  · exact List.mem_append_left _ (List.getLast_mem hmiddle)
  · simp [List.head?_append, List.head?_eq_some_head hlater]
  · exact List.mem_append_right _ (List.head_mem hlater)

/-! ## Parts and dotted names -/

theorem isDotted_of_isName {name : String} (hname : IsName name) : IsDotted name :=
  ⟨⟨[name]⟩, ⟨by simp, by simpa using hname⟩, rfl⟩

theorem isDotted_of_target? {source : String} (hsource : IsDotted source)
    (new : String) :
    ∀ name target, target? [(source, new)] name = some target → IsDotted name := by
  intro name target htarget
  rw [target?_cons] at htarget
  split at htarget
  next hname => rwa [hname]
  next => simp [target?] at htarget

theorem IsDotted.not_mem_marks {name : String} (hname : IsDotted name) :
    ∀ c ∈ name.toList, c ∉ Part.marks := by
  obtain ⟨path, hpath, hchars⟩ := hname
  intro c hc hmark
  have hchar := hpath.isPathChar c (hchars ▸ hc)
  have hall : ∀ c ∈ Part.marks, isPathChar c = false := by
    simp [Part.marks, isPathChar, isNameChar]
  rw [hall c hmark] at hchar
  contradiction

variable {pairs : List (String × String)} {text : String} {front : List Part}
  {part : Part} {parts : List Part}

theorem IsLocated.not_mem_marks {edit : Edit} (hedit : IsLocated pairs text edit)
    (hdotted : ∀ name target, target? pairs name = some target → IsDotted name) :
    ∀ c ∈ edit.source, c ∉ Part.marks := by
  obtain ⟨name, target, _, htarget, _, hsource, _⟩ := hedit
  rw [hsource]
  exact (hdotted name target htarget).not_mem_marks

/-- No edit of dotted names reaches beyond the end of a part. -/
theorem stop_le_or_le_offset
    (hdotted : ∀ name target, target? pairs name = some target → IsDotted name)
    (htext : text.toList = partsChars (front ++ part :: parts))
    (hdivided : WellDivided (front ++ part :: parts)) {edit : Edit}
    (hedit : IsLocated pairs text edit) :
    edit.stop ≤ (partsChars front).length + part.chars.length ∨
      (partsChars front).length + part.chars.length ≤ edit.offset := by
  have hclean := hedit.not_mem_marks hdotted
  have hoccurs := hedit.standsAt.occursAt
  have hsplit : text.toList =
      (partsChars front ++ part.chars) ++ partsChars parts := by
    simpa using htext
  rw [hsplit] at hoccurs
  rw [← List.length_append]
  by_contra hnot
  rw [not_or, not_le, not_le, Edit.stop] at hnot
  obtain ⟨⟨c, hlast, hc⟩, d, hnext, hd⟩ :=
    hoccurs.mem_of_across hnot.2 hnot.1
  cases parts with
  | nil => simp at hnext
  | cons next parts =>
      have hprecedes : part.Precedes next :=
        (List.isChain_append_cons_cons.mp hdivided.separated).2.1
      rcases hprecedes.mark_or_mark with ⟨mark, rfl⟩ | ⟨mark, rfl⟩
      · have hmark := hdivided.valid (.mark mark) (by simp)
        obtain rfl : mark = c := by
          simpa [Part.chars] using hlast
        exact hclean mark hc hmark
      · have hmark := hdivided.valid (.mark mark) (by simp)
        obtain rfl : mark = d := by
          simpa [Part.chars] using hnext
        exact hclean mark hd hmark

/-- Where a character that opens a name stands right before a place in a word, that
character is a dot in the word: a word holds no brace and does not follow an
opening one. -/
theorem exists_dot_before {word before left : List Char} {o : Char}
    (hdivided : WellDivided (front ++ .word word :: parts))
    (hbegins : before <+: word)
    (hfront : left ++ [o] = partsChars front ++ before) (ho : o ∈ opening) :
    ∃ start, before = start ++ ['.'] := by
  rcases List.eq_nil_or_concat before with rfl | ⟨start, d, hbefore⟩
  · rcases hdivided.mark_before_word with rfl | ⟨others, m, rfl, hm, hbrace⟩
    · simp at hfront
    · obtain ⟨_, rfl⟩ : left = partsChars others ∧ o = m := by
        simpa [Part.chars] using hfront
      have hnone : ∀ c ∈ opening, c ∈ Part.marks → c = '{' := by
        simp [opening, Part.marks]
      exact absurd (hnone o ho hm) hbrace
  · rw [List.concat_eq_append] at hbefore
    subst hbefore
    rw [← List.append_assoc, List.append_singleton_inj] at hfront
    obtain ⟨_, rfl⟩ := hfront
    have hchar : isTextChar o = true :=
      hdivided.valid (.word word) (by simp) o (hbegins.subset (by simp))
    obtain rfl : o = '.' := by
      rcases List.mem_cons.mp ho with rfl | hdot
      · contradiction
      · simpa using hdot
    exact ⟨start, rfl⟩

/-- An edit in a word is behind a dot, and a dot, a `=` or the end of the word is
behind the edit. -/
theorem isBehindDot_of_isLocated {word before back : List Char}
    (htext : text.toList = partsChars (front ++ .word word :: parts))
    (hdivided : WellDivided (front ++ .word word :: parts)) {edit : Edit}
    (hedit : IsLocated pairs text edit)
    (hword : word = before ++ (edit.source ++ back))
    (hoffset : (partsChars front).length + before.length = edit.offset) :
    IsBehindDot (partsChars front).length word edit := by
  obtain ⟨left, o, c, right, hsplit, hleft, ho, hc⟩ := hedit.standsAt
  have hboth : (left ++ [o]) ++ (edit.source ++ c :: right) =
      (partsChars front ++ before) ++
        (edit.source ++ (back ++ partsChars parts)) := by
    rw [htext] at hsplit
    simpa [Part.chars, hword] using hsplit.symm
  obtain ⟨hfront, hback⟩ := List.append_inj hboth (by simp; omega)
  rw [List.append_cancel_left_eq] at hback
  obtain ⟨start, rfl⟩ := exists_dot_before hdivided
    (hword ▸ List.prefix_append before _) hfront ho
  refine ⟨start, back, by simpa using hword, ?_, ?_⟩
  · rw [List.length_append] at hoffset
    exact hoffset
  · intro d hd
    have hchar : isTextChar d = true := hdivided.valid (.word word) (by simp) d
      (by simp [hword, List.mem_of_mem_head? hd])
    obtain rfl : c = d := by
      have hheads := congrArg List.head? hback
      rw [List.head?_append, hd] at hheads
      simpa using hheads
    rcases List.mem_cons.mp hc with rfl | hc
    · contradiction
    · simpa using hc

theorem partRenamed_of_replaced
    (hdotted : ∀ name target, target? pairs name = some target → IsDotted name)
    (htext : text.toList = partsChars (front ++ part :: parts))
    (hdivided : WellDivided (front ++ part :: parts)) {edits : List Edit}
    (hedits : ∀ edit ∈ edits, IsLocated pairs text edit) {result : List Char}
    (hreplaced : Replaced edits (partsChars front).length part.chars result) :
    ∃ new : Part, new.chars = result ∧
      PartRenamed pairs text (partsChars front).length part new := by
  cases part with
  | mark c =>
      have hmark : c ∈ Part.marks := hdivided.valid (.mark c) (by simp)
      have hnone : ∀ edit, edit ∉ edits := by
        intro edit hmem
        obtain ⟨d, hd⟩ := List.exists_mem_of_ne_nil _
          (hedits edit hmem).source_ne_nil
        obtain ⟨before, back, hchars, _⟩ := hreplaced.exists_source hmem
        have hsame : d ∈ Part.chars (.mark c) := by
          rw [hchars]
          simp [hd]
        obtain rfl : d = c := List.mem_singleton.mp hsame
        exact (hedits edit hmem).not_mem_marks hdotted d hd hmark
      exact ⟨.mark c, (hreplaced.eq_of_forall_not_mem hnone).symm, .mark c⟩
  | field path => exact ⟨.field result, rfl, .field hreplaced hedits⟩
  | word word =>
      refine ⟨.word result, rfl, .word hreplaced ?_⟩
      intro edit hmem
      obtain ⟨before, back, hword, hoffset⟩ := hreplaced.exists_source hmem
      exact ⟨hedits edit hmem, isBehindDot_of_isLocated htext hdivided
        (hedits edit hmem) hword hoffset⟩

/-- The parts are renamed one by one. -/
theorem partsRenamed_of_replaced
    (hdotted : ∀ name target, target? pairs name = some target → IsDotted name)
    (htext : text.toList = partsChars (front ++ parts))
    (hdivided : WellDivided (front ++ parts)) {edits : List Edit}
    (hedits : ∀ edit ∈ edits, IsLocated pairs text edit) {result : List Char}
    (hreplaced : Replaced edits (partsChars front).length (partsChars parts)
      result) :
    ∃ results, partsChars results = result ∧
      PartsRenamed pairs text (partsChars front).length parts results := by
  induction parts generalizing front edits result with
  | nil =>
      have hnone : ∀ edit, edit ∉ edits := by
        intro edit hmem
        obtain ⟨before, back, hchars, _⟩ := hreplaced.exists_source hmem
        have hempty : edit.source = [] := by
          rw [partsChars_nil, List.nil_eq, List.append_eq_nil_iff,
            List.append_eq_nil_iff] at hchars
          exact hchars.2.1
        exact (hedits edit hmem).source_ne_nil hempty
      exact ⟨[], (hreplaced.eq_of_forall_not_mem hnone).symm, .nil _⟩
  | cons part parts ih =>
      obtain ⟨first, later, new, rest, rfl, rfl, hpart, hothers⟩ :=
        hreplaced.split fun edit hmem =>
          stop_le_or_le_offset hdotted htext hdivided (hedits edit hmem)
      obtain ⟨hfirst, hlater⟩ := List.forall_mem_append.mp hedits
      obtain ⟨renamed, rfl, hrenamed⟩ :=
        partRenamed_of_replaced hdotted htext hdivided hfirst hpart
      have hstart : (partsChars front).length + part.chars.length =
          (partsChars (front ++ [part])).length := by
        simp
      rw [hstart] at hothers
      obtain ⟨results, rfl, hresults⟩ := ih
        (by simpa using htext) (by simpa using hdivided) hlater hothers
      rw [← hstart] at hresults
      exact ⟨renamed :: results, rfl, .cons hrenamed hresults⟩

theorem PartsRenamed.sameButField {start : Nat} {parts results : List Part}
    (hrenamed : PartsRenamed pairs text start parts results)
    (hfree : ∀ word, .word word ∈ parts → ∀ name target,
      target? pairs name = some target → ¬ '.' :: name.toList <:+: word) :
    List.Forall₂ SameButField parts results := by
  induction hrenamed with
  | nil => exact .nil
  | cons hpart _ ih =>
      refine .cons ?_ (ih fun word hmem => hfree word (List.mem_cons_of_mem _ hmem))
      cases hpart with
      | mark c => rfl
      | field => trivial
      | @word edits word result hreplaced hedits =>
          have hnone : ∀ edit, edit ∉ edits := by
            intro edit hmem
            obtain ⟨⟨name, target, _, htarget, _, hsource, _⟩, before, back, hword,
              _⟩ := hedits edit hmem
            apply hfree word List.mem_cons_self name target htarget
            exact ⟨before, back, by simp [hword, hsource]⟩
          rw [hreplaced.eq_of_forall_not_mem hnone]
          rfl

/-- The text of a template divides into parts, and a renaming with dotted names
renames them one by one: no delimiter changes, and in a word nothing changes but
names behind a dot.  If no word holds such a name then only the texts of field
paths change. -/
theorem rename_keeps_parts {text : String} {template : Template}
    (hparse : Template.parse text = .ok template) {pairs : List (String × String)}
    (hdotted : ∀ name target, target? pairs name = some target → IsDotted name) :
    (∃ parts, IsDivided text template parts) ∧
      ∀ parts, IsDivided text template parts →
        ∃ results, (rename pairs text).toList = partsChars results ∧
          PartsRenamed pairs text 0 parts results ∧
          ((∀ word, .word word ∈ parts → ∀ name target,
              target? pairs name = some target →
                ¬ '.' :: name.toList <:+: word) →
            List.Forall₂ SameButField parts results) := by
  refine ⟨exists_isDivided hparse, ?_⟩
  intro parts hdivided
  have htext : text.toList = partsChars ([] ++ parts) := by
    obtain ⟨_, _, _, _, _, htext⟩ := hdivided
    exact htext
  obtain ⟨hlocated, _, hreplaced⟩ := chosenEdits_spec pairs text
  obtain ⟨results, hresults, hrenamed⟩ := partsRenamed_of_replaced
    hdotted htext hdivided.wellDivided hlocated (htext ▸ hreplaced)
  exact ⟨results, hresults.symm, hrenamed, hrenamed.sameButField⟩

theorem rename_keeps_parts_with_literal_name :
    Template.parse "/id/{id}" = .ok
        ⟨[.plain (.literal "id"), .variable ⟨⟨["id"]⟩, [.any]⟩], none⟩ ∧
      IsDotted "id" ∧
      ∃ results, (rename [("id", "key")] "/id/{id}").toList = partsChars results ∧
        List.Forall₂ SameButField [.mark '/', .word "id".toList, .mark '/',
          .mark '{', .field "id".toList, .mark '}'] results := by
  have hparse : Template.parse "/id/{id}" = .ok
      ⟨[.plain (.literal "id"), .variable ⟨⟨["id"]⟩, [.any]⟩], none⟩ := by
    decide +kernel
  have hid : IsName "id" := ⟨'i', ['d'], by simp [isNameStart, isNameChar]⟩
  have hdotted := isDotted_of_isName hid
  obtain ⟨_, hparts⟩ := rename_keeps_parts hparse
    (isDotted_of_target? hdotted "key")
  obtain ⟨results, hresults, _, hsame⟩ := hparts _
    (isDivided_literal_variable "/id/{id}" "id" "id"
      ⟨by decide, by simp [isTextChar, isDelimiter]⟩ hid rfl)
  refine ⟨hparse, hdotted, results, hresults, hsame ?_⟩
  intro word hmem name target htarget hinfix
  obtain rfl : word = "id".toList := by simpa using hmem
  have hdot : '.' ∈ "id".toList := hinfix.subset List.mem_cons_self
  exact absurd hdot (by decide)

/-- A name behind a dot of a literal is renamed too. -/
theorem not_forall_rename_fields_only :
    ¬ ∀ text template parts pairs, Template.parse text = .ok template →
      IsDivided text template parts →
      (∀ name target, target? pairs name = some target → IsDotted name) →
      ∃ results, (rename pairs text).toList = partsChars results ∧
        List.Forall₂ SameButField parts results := by
  intro hall
  have hparse : Template.parse "/a.b.c/{x}" = .ok
      ⟨[.plain (.literal "a.b.c"), .variable ⟨⟨["x"]⟩, [.any]⟩], none⟩ := by
    decide +kernel
  have hdivided := isDivided_literal_variable "/a.b.c/{x}" "a.b.c" "x"
    ⟨by decide, by simp [isTextChar, isDelimiter]⟩ ⟨'x', [], by simp [isNameStart]⟩
    rfl
  obtain ⟨results, hresults, hsame⟩ := hall _ _ _ [("b", "z")] hparse hdivided
    (isDotted_of_target? (isDotted_of_isName ⟨'b', [], by simp [isNameStart]⟩) "z")
  have hrenamed : (rename [("b", "z")] "/a.b.c/{x}").toList =
      "/a.z.c/{x}".toList := by
    decide +kernel
  -- The first two parts are no field path, so they would have to stay.
  obtain ⟨_, _, rfl, hothers, rfl⟩ := List.forall₂_cons_left_iff.mp hsame
  obtain ⟨_, _, rfl, _, rfl⟩ := List.forall₂_cons_left_iff.mp hothers
  rw [hrenamed] at hresults
  have hthird := congrArg (fun chars => chars[3]?) hresults
  simp [Part.chars] at hthird

end HttpRoutes.Projection
