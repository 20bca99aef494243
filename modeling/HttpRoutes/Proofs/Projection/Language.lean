import HttpRoutes.Projection.Regex
import Mathlib.Computability.Language

/-!
# The language of an expression

An expression stands for a set of texts.  It accepts exactly these: what may
remain after a match of a leading part is what is left behind some text of the
language.

The written form loses nothing of it.  A reader for written forms is given here
that knows nothing of the writer: a character class, possibly repeated, or a
group that may be left out, one after the other.  Every expression that is
written down is read as one with the same language, whatever characters its
literals hold.
-/

namespace HttpRoutes

namespace Regex

/-- The texts that an expression stands for. -/
def language : Regex → Language Char
  | .empty => 1
  | .one chars => {text | ∃ c, text = [c] ∧ chars.accepts c = true}
  | .several chars => {text | text ≠ [] ∧ ∀ c ∈ text, chars.accepts c = true}
  | .many chars => {text | ∀ c ∈ text, chars.accepts c = true}
  | .optional body => 1 + body.language
  | .append first second => first.language * second.language

theorem mem_language_one {chars : CharClass} {text : List Char} :
    text ∈ (one chars).language ↔
      ∃ c, text = [c] ∧ chars.accepts c = true :=
  Iff.rfl

theorem mem_language_several {chars : CharClass} {text : List Char} :
    text ∈ (several chars).language ↔
      text ≠ [] ∧ ∀ c ∈ text, chars.accepts c = true :=
  Iff.rfl

theorem mem_language_many {chars : CharClass} {text : List Char} :
    text ∈ (many chars).language ↔ ∀ c ∈ text, chars.accepts c = true :=
  Iff.rfl

theorem mem_language_optional {body : Regex} {text : List Char} :
    text ∈ body.optional.language ↔ text = [] ∨ text ∈ body.language := by
  rw [language, Language.mem_add, Language.mem_one]

theorem mem_language_append {first second : Regex} {text : List Char} :
    text ∈ (first.append second).language ↔
      ∃ front ∈ first.language, ∃ back ∈ second.language,
        front ++ back = text := by
  rw [language, Language.mem_mul]

theorem mem_language_exactly {c : Char} {text : List Char} :
    text ∈ (one (.exactly c)).language ↔ text = [c] := by
  rw [mem_language_one]
  simp only [CharClass.accepts, decide_eq_true_eq, exists_eq_right']

theorem mem_language_several_notSlash {text : List Char} :
    text ∈ (several .notSlash).language ↔ text ≠ [] ∧ '/' ∉ text := by
  rw [mem_language_several]
  simp only [CharClass.accepts, decide_eq_true_eq, ne_eq, List.forall_mem_ne']

theorem mem_language_many_notNewline {text : List Char} :
    text ∈ (many .notNewline).language ↔ '\n' ∉ text := by
  rw [mem_language_many]
  simp only [CharClass.accepts, decide_eq_true_eq, ne_eq, List.forall_mem_ne']

/-! ## What is accepted -/

theorem mem_manyRests_iff {chars : CharClass} {text left : List Char} :
    left ∈ manyRests chars text ↔
      ∃ front ∈ (many chars).language, text = front ++ left := by
  simp only [mem_language_many]
  induction text with
  | nil =>
      constructor
      · intro hmem
        have hleft : left = [] := List.mem_singleton.mp hmem
        exact ⟨[], by simp, by simp [hleft]⟩
      · intro hfront
        obtain ⟨front, _, htext⟩ := hfront
        have hleft : left = [] := (List.append_eq_nil_iff.mp htext.symm).2
        simp [manyRests, hleft]
  | cons c text ih =>
      rw [manyRests, List.mem_cons]
      constructor
      · intro hmem
        cases hmem with
        | inl hall => exact ⟨[], by simp, by simp [hall]⟩
        | inr hmem =>
            by_cases hc : chars.accepts c = true
            · rw [if_pos hc] at hmem
              obtain ⟨front, hfront, htext⟩ := ih.mp hmem
              exact ⟨c :: front, by simpa [hc] using hfront, by simp [htext]⟩
            · simp [hc] at hmem
      · intro hfront
        obtain ⟨front, hall, htext⟩ := hfront
        cases front with
        | nil => exact .inl htext.symm
        | cons d front =>
            simp only [List.cons_append, List.cons.injEq] at htext
            have hc : chars.accepts c = true := by
              rw [htext.1]
              exact hall d (by simp)
            rw [if_pos hc]
            have hlater : ∀ e ∈ front, chars.accepts e = true :=
              fun e hmem => hall e (by simp [hmem])
            exact .inr (ih.mpr ⟨front, hlater, htext.2⟩)

theorem mem_rests_one_iff {chars : CharClass} {text left : List Char} :
    left ∈ (one chars).rests text ↔
      ∃ front ∈ (one chars).language, text = front ++ left := by
  simp only [mem_language_one]
  cases text with
  | nil => simp [rests]
  | cons c text =>
      rw [rests]
      constructor
      · intro hmem
        by_cases hc : chars.accepts c = true
        · rw [if_pos hc, List.mem_singleton] at hmem
          exact ⟨[c], ⟨c, rfl, hc⟩, by simp [hmem]⟩
        · simp [hc] at hmem
      · intro hfront
        obtain ⟨front, ⟨d, hsingle, hd⟩, htext⟩ := hfront
        rw [hsingle, List.singleton_append, List.cons.injEq] at htext
        rw [htext.1, if_pos hd, List.mem_singleton]
        exact htext.2.symm

theorem mem_rests_several_iff {chars : CharClass} {text left : List Char} :
    left ∈ (several chars).rests text ↔
      ∃ front ∈ (several chars).language, text = front ++ left := by
  simp only [mem_language_several]
  cases text with
  | nil => simp [rests]
  | cons c text =>
      rw [rests]
      constructor
      · intro hmem
        by_cases hc : chars.accepts c = true
        · rw [if_pos hc] at hmem
          obtain ⟨front, hall, htext⟩ := mem_manyRests_iff.mp hmem
          rw [mem_language_many] at hall
          exact ⟨c :: front, ⟨by simp, by simpa [hc] using hall⟩, by simp [htext]⟩
        · simp [hc] at hmem
      · intro hfront
        obtain ⟨front, ⟨hne, hall⟩, htext⟩ := hfront
        cases front with
        | nil => contradiction
        | cons d front =>
            rw [List.cons_append, List.cons.injEq] at htext
            have hd : chars.accepts d = true := hall d (by simp)
            have hlater : front ∈ (many chars).language :=
              fun e hmem => hall e (by simp [hmem])
            rw [htext.1, if_pos hd]
            exact mem_manyRests_iff.mpr ⟨front, hlater, htext.2⟩

theorem mem_rests_iff {r : Regex} {text left : List Char} :
    left ∈ r.rests text ↔ ∃ front ∈ r.language, text = front ++ left := by
  induction r generalizing text left with
  | empty =>
      rw [rests, List.mem_singleton]
      simp [language, Language.mem_one, eq_comm (a := left)]
  | one chars => exact mem_rests_one_iff
  | several chars => exact mem_rests_several_iff
  | many chars => exact mem_manyRests_iff
  | optional body ih =>
      rw [rests, List.mem_cons, ih]
      constructor
      · intro hmem
        cases hmem with
        | inl hall =>
            exact ⟨[], mem_language_optional.mpr (.inl rfl), hall.symm⟩
        | inr hmem =>
            obtain ⟨front, hfront, htext⟩ := hmem
            exact ⟨front, mem_language_optional.mpr (.inr hfront), htext⟩
      · intro hmem
        obtain ⟨front, hfront, htext⟩ := hmem
        cases mem_language_optional.mp hfront with
        | inl hnone =>
            rw [hnone] at htext
            exact .inl htext.symm
        | inr hfront => exact .inr ⟨front, hfront, htext⟩
  | append first second ihFirst ihSecond =>
      rw [rests, List.mem_flatMap]
      constructor
      · intro hmem
        obtain ⟨middle, hmiddle, hleft⟩ := hmem
        obtain ⟨front, hfront, htext⟩ := ihFirst.mp hmiddle
        obtain ⟨back, hback, hmiddle⟩ := ihSecond.mp hleft
        refine ⟨front ++ back, ?_, ?_⟩
        · exact mem_language_append.mpr ⟨front, hfront, back, hback, rfl⟩
        · rw [htext, hmiddle, List.append_assoc]
      · intro hmem
        obtain ⟨whole, hwhole, htext⟩ := hmem
        obtain ⟨front, hfront, back, hback, heq⟩ := mem_language_append.mp hwhole
        have hmiddle : back ++ left ∈ first.rests text := by
          apply ihFirst.mpr
          exact ⟨front, hfront, by rw [htext, ← heq, List.append_assoc]⟩
        exact ⟨back ++ left, hmiddle, ihSecond.mpr ⟨back, hback, rfl⟩⟩

theorem accepts_iff {r : Regex} {text : String} :
    r.accepts text = true ↔ text.toList ∈ r.language := by
  rw [accepts, List.any_eq_true]
  simp [mem_rests_iff]

/-! ## The written form -/

/-- Read a class of characters.  A character with a meaning of its own stands
for itself only behind a backslash. -/
def readClass : List Char → Option (CharClass × List Char)
  | [] => none
  | '\\' :: c :: cs => if isRegexMeta c then some (.exactly c, cs) else none
  | '[' :: '^' :: '/' :: ']' :: cs => some (.notSlash, cs)
  | '.' :: cs => some (.notNewline, cs)
  | c :: cs => if isRegexMeta c then none else some (.exactly c, cs)

/-- A class, as often as the sign after it says. -/
def readRepeated (chars : CharClass) : List Char → Regex × List Char
  | '+' :: cs => (.several chars, cs)
  | '*' :: cs => (.many chars, cs)
  | cs => (.one chars, cs)

/-- Read classes and groups up to the end of a group or of the expression.
`fuel` bounds their number. -/
def readItems : Nat → List Char → Option (Regex × List Char)
  | 0, _ => none
  | fuel + 1, cs =>
    match cs with
    | [] => some (.empty, [])
    | ')' :: cs => some (.empty, ')' :: cs)
    | '$' :: cs => some (.empty, '$' :: cs)
    | '(' :: '?' :: ':' :: cs =>
      match readItems fuel cs with
      | some (body, ')' :: '?' :: cs) =>
        (readItems fuel cs).map fun (later, left) =>
          (.append (.optional body) later, left)
      | _ => none
    | cs =>
      match readClass cs with
      | none => none
      | some (chars, cs) =>
        (readItems fuel (readRepeated chars cs).2).map fun (later, left) =>
          (.append (readRepeated chars cs).1 later, left)

/-- The expression between two anchors. -/
def ofAnchoredText? (text : String) : Option Regex :=
  match text.toList with
  | '^' :: cs =>
    match readItems (cs.length + 1) cs with
    | some (r, ['$']) => some r
    | _ => none
  | _ => none

/-- With enough fuel, what is read of a text has this language. -/
def Reads (text : List Char) (texts : Language Char) (left : List Char) : Prop :=
  ∃ r : Regex, r.language = texts ∧
    ∀ fuel, text.length < fuel → readItems fuel text = some (r, left)

/-- No sign that a class could be repeated by. -/
def NoSign (text : List Char) : Prop :=
  text.head? ≠ some '+' ∧ text.head? ≠ some '*'

theorem ne_of_not_meta {c d : Char} (hc : isRegexMeta c = false)
    (hd : isRegexMeta d = true) : c ≠ d := by
  intro heq
  rw [heq, hd] at hc
  contradiction

theorem readClass_chars (chars : CharClass) (cs : List Char) :
    readClass (chars.chars ++ cs) = some (chars, cs) := by
  cases chars with
  | exactly c =>
      cases hc : isRegexMeta c with
      | true => simp [CharClass.chars, hc, readClass]
      | false =>
          have hslash : c ≠ '\\' := ne_of_not_meta hc (by decide)
          have hbracket : c ≠ '[' := ne_of_not_meta hc (by decide)
          have hdot : c ≠ '.' := ne_of_not_meta hc (by decide)
          simp_all [CharClass.chars, readClass]
  | notSlash => rfl
  | notNewline => rfl

theorem readItems_chars (chars : CharClass) (fuel : Nat) (cs : List Char) :
    readItems (fuel + 1) (chars.chars ++ cs) =
      (readItems fuel (readRepeated chars cs).2).map fun (later, left) =>
        (.append (readRepeated chars cs).1 later, left) := by
  have hclass := readClass_chars chars cs
  cases chars with
  | exactly c =>
      cases hc : isRegexMeta c with
      | true =>
          simp only [CharClass.chars, hc, if_true, List.cons_append,
            List.nil_append] at hclass ⊢
          simp [readItems, hclass]
      | false =>
          have hclose : c ≠ ')' := ne_of_not_meta hc (by decide)
          have hanchor : c ≠ '$' := ne_of_not_meta hc (by decide)
          have hopen : c ≠ '(' := ne_of_not_meta hc (by decide)
          simp only [CharClass.chars, hc, Bool.false_eq_true, if_false,
            List.cons_append, List.nil_append] at hclass ⊢
          simp [readItems, hclass, hclose, hanchor, hopen]
  | notSlash => rfl
  | notNewline => rfl

theorem noSign_chars (chars : CharClass) (cs : List Char) :
    NoSign (chars.chars ++ cs) := by
  cases chars with
  | exactly c =>
      cases hc : isRegexMeta c with
      | true => simp [NoSign, CharClass.chars, hc]
      | false =>
          have hplus : c ≠ '+' := ne_of_not_meta hc (by decide)
          have hstar : c ≠ '*' := ne_of_not_meta hc (by decide)
          simp [NoSign, CharClass.chars, hc, hplus, hstar]
  | notSlash => simp [NoSign, CharClass.chars]
  | notNewline => simp [NoSign, CharClass.chars]

theorem NoSign.chars_append {cs : List Char} (hcs : NoSign cs) (r : Regex) :
    NoSign (r.chars ++ cs) := by
  induction r generalizing cs with
  | empty => exact hcs
  | one kind => exact noSign_chars kind cs
  | several kind =>
      rw [chars, List.append_assoc]
      exact noSign_chars kind _
  | many kind =>
      rw [chars, List.append_assoc]
      exact noSign_chars kind _
  | optional body _ => simp [NoSign, chars]
  | append first second ihFirst ihSecond =>
      rw [chars, List.append_assoc]
      exact ihFirst (ihSecond hcs)

theorem NoSign.readRepeated_eq {cs : List Char} (hcs : NoSign cs)
    (kind : CharClass) : readRepeated kind cs = (.one kind, cs) := by
  unfold readRepeated
  split
  · simp [NoSign] at hcs
  · simp [NoSign] at hcs
  · rfl

/-! Everything that is written is read as something with its language, in
front of whatever else is read. -/

theorem Reads.repeated {kind : CharClass} {cs cs' left : List Char} {r : Regex}
    {later : Language Char} (hreads : Reads cs' later left)
    (hrepeated : readRepeated kind cs = (r, cs'))
    (hlength : cs'.length ≤ cs.length) :
    Reads (kind.chars ++ cs) (r.language * later) left := by
  obtain ⟨others, hlanguage, hread⟩ := hreads
  refine ⟨.append r others, by rw [language, hlanguage], ?_⟩
  intro fuel hfuel
  have hclass : kind.chars ≠ [] := by
    intro hnil
    have hread := readClass_chars kind []
    rw [hnil] at hread
    contradiction
  rw [List.length_append] at hfuel
  cases fuel with
  | zero => contradiction
  | succ fuel =>
      have hpos := List.length_pos_of_ne_nil hclass
      rw [readItems_chars, hrepeated, hread fuel (by omega)]
      rfl

theorem Reads.optional {body later : Language Char} {bodyText cs left : List Char}
    (hbody : Reads (bodyText ++ ')' :: '?' :: cs) body (')' :: '?' :: cs))
    (hreads : Reads cs later left) :
    Reads ('(' :: '?' :: ':' :: (bodyText ++ ')' :: '?' :: cs))
      ((1 + body) * later) left := by
  obtain ⟨inner, hinner, hreadInner⟩ := hbody
  obtain ⟨others, hothers, hread⟩ := hreads
  refine ⟨.append (.optional inner) others, ?_, ?_⟩
  · rw [language, language, hinner, hothers]
  · intro fuel hfuel
    cases fuel with
    | zero => contradiction
    | succ fuel =>
        simp only [List.length_cons, List.length_append] at hfuel
        have hfirst := hreadInner fuel (by
          simp only [List.length_cons, List.length_append]
          omega)
        have hsecond := hread fuel (by omega)
        simp [readItems, hfirst, hsecond]

theorem Reads.chars_append {cs left : List Char} {later : Language Char}
    (hreads : Reads cs later left) (hsign : NoSign cs) (r : Regex) :
    Reads (r.chars ++ cs) (r.language * later) left := by
  -- What is read behind the expression is carried along, since a sign there
  -- would change how the expression itself is read.
  induction r generalizing cs left later with
  | empty =>
      rw [chars, language, one_mul]
      exact hreads
  | one kind =>
      exact hreads.repeated (hsign.readRepeated_eq kind) le_rfl
  | several kind =>
      rw [chars, List.append_assoc]
      exact hreads.repeated rfl (by simp)
  | many kind =>
      rw [chars, List.append_assoc]
      exact hreads.repeated rfl (by simp)
  | optional body ih =>
      -- The body is read up to the parenthesis behind it and no further.
      have hclosed : Reads (')' :: '?' :: cs) 1 (')' :: '?' :: cs) := by
        refine ⟨.empty, rfl, ?_⟩
        intro fuel hfuel
        cases fuel with
        | zero => contradiction
        | succ fuel => rfl
      have hbody := ih hclosed (by simp [NoSign])
      rw [mul_one] at hbody
      have hgroup := Reads.optional hbody hreads
      have htext : body.optional.chars ++ cs =
          '(' :: '?' :: ':' :: (body.chars ++ ')' :: '?' :: cs) := by
        simp [chars]
      rw [htext]
      exact hgroup
  | append first second ihFirst ihSecond =>
      rw [chars, List.append_assoc, language, mul_assoc]
      exact ihFirst (ihSecond hreads hsign) (hsign.chars_append second)

/-- An expression that is written down is read as one with the same language. -/
theorem ofAnchoredText?_anchoredText (r : Regex) :
    ∃ read, ofAnchoredText? r.anchoredText = some read ∧
      read.language = r.language := by
  have hend : Reads ['$'] 1 ['$'] := by
    refine ⟨.empty, rfl, ?_⟩
    intro fuel hfuel
    cases fuel with
    | zero => contradiction
    | succ fuel => rfl
  obtain ⟨read, hlanguage, hread⟩ := hend.chars_append (by simp [NoSign]) r
  refine ⟨read, ?_, by rw [hlanguage, mul_one]⟩
  have htext : r.anchoredText.toList = '^' :: (r.chars ++ ['$']) := by
    simp [anchoredText]
  unfold ofAnchoredText?
  rw [htext]
  simp only [hread _ (Nat.lt_succ_self _)]

end Regex
end HttpRoutes
