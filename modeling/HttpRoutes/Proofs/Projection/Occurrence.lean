import HttpRoutes.Projection.Rename
import HttpRoutes.Proofs.Text.Bytes

/-!
# Where a name is found

A name is looked for among its occurrences from left to right, and occurrences
that overlap one already looked at are passed over.  Of those that remain, the
first that stands in a field path is found.

So a place where a name stands is missed only if an earlier occurrence reaches
into it.  That occurrence holds the character before the name, which is `{` or
`.`, and so the name begins again behind one of its own such characters.  Names
of which this cannot be said are found in every text at the first place where
they stand, and all others are missed in some text.
-/

namespace HttpRoutes.Projection

/-- `name` stands at `offset` between a character that opens and one that
closes. -/
def StandsAt {α : Type} (opens closes name text : List α) (offset : Nat) : Prop :=
  ∃ front opening closing back,
    text = front ++ opening :: (name ++ closing :: back) ∧
      front.length + 1 = offset ∧ opening ∈ opens ∧ closing ∈ closes

def OccursAt {α : Type} (name text : List α) (offset : Nat) : Prop :=
  ∃ front back, text = front ++ (name ++ back) ∧ front.length = offset

def opening : List Char := ['{', '.']

def closing : List Char := ['}', '.', '=']

/-- The offsets of a name, from left to right and without overlap.  `skip`
characters belong to the occurrence before. -/
def occurrencesFrom (name : List Char) (skip offset : Nat) : List Char → List Nat
  | [] => []
  | c :: cs =>
    match skip with
    | skip + 1 => occurrencesFrom name skip (offset + 1) cs
    | 0 =>
      if name.isPrefixOf (c :: cs) then
        offset :: occurrencesFrom name (name.length - 1) (offset + 1) cs
      else
        occurrencesFrom name 0 (offset + 1) cs

def occurrences (name text : List Char) : List Nat := occurrencesFrom name 0 0 text

def charBefore? (text : List Char) (offset : Nat) : Option Char :=
  if offset = 0 then none else text[offset - 1]?

def isBounded (name text : List Char) (offset : Nat) : Bool :=
  opensName (charBefore? text offset) && closesName text[offset + name.length]?

/-- The name begins again behind one of its own characters `{` and `.`. -/
def Reopens (name : List Char) : Prop :=
  ∃ front c back, name = front ++ c :: back ∧ c ∈ opening ∧ back ≠ [] ∧
    back <+: name

variable {name text : List Char} {skip offset : Nat}

/-! ## Places in a text -/

/-- Of two ways to cut a text in two, the later cuts the earlier's second half. -/
theorem exists_append_of_length_le {α : Type} {front back front' back' : List α}
    (heq : front ++ back = front' ++ back')
    (hle : front'.length ≤ front.length) :
    ∃ middle, front = front' ++ middle ∧ back' = middle ++ back := by
  obtain ⟨middle, rfl⟩ : front' <+: front :=
    List.prefix_of_prefix_length_le (heq ▸ List.prefix_append front' back')
      (List.prefix_append front back) hle
  rw [List.append_assoc, List.append_cancel_left_eq] at heq
  exact ⟨middle, rfl, heq.symm⟩

theorem occursAt_iff {α : Type} {name text : List α} {offset : Nat}
    (hname : name ≠ []) : OccursAt name text offset ↔ name <+: text.drop offset := by
  constructor
  · rintro ⟨front, back, rfl, rfl⟩
    simp
  · rintro ⟨back, hback⟩
    refine ⟨text.take offset, back, ?_, ?_⟩
    · rw [hback, List.take_append_drop]
    · have hlength := congrArg List.length hback
      have hpos := List.length_pos_iff.mpr hname
      rw [List.length_append, List.length_drop] at hlength
      rw [List.length_take]
      omega

theorem opensName_some_iff (c : Char) : opensName (some c) = true ↔ c ∈ opening := by
  simp [opensName, opening]

theorem closesName_some_iff (c : Char) :
    closesName (some c) = true ↔ c ∈ closing := by
  simp [closesName, closing, or_assoc]

theorem StandsAt.occursAt {α : Type} {opens closes name text : List α}
    {offset : Nat} (hstands : StandsAt opens closes name text offset) :
    OccursAt name text offset := by
  obtain ⟨front, o, c, back, rfl, rfl, _, _⟩ := hstands
  exact ⟨front ++ [o], c :: back, by simp, by simp⟩

theorem standsAt_iff :
    StandsAt opening closing name text offset ↔
      OccursAt name text offset ∧ isBounded name text offset = true := by
  constructor
  · intro hstands
    refine ⟨hstands.occursAt, ?_⟩
    obtain ⟨front, o, c, back, rfl, rfl, ho, hc⟩ := hstands
    have hclose : (front ++ o :: (name ++ c :: back))[front.length + 1 +
        name.length]? = some c := by
      rw [List.getElem?_append_right (by omega)]
      simp [show front.length + 1 + name.length - front.length =
        name.length + 1 by omega]
    rw [isBounded, hclose, Bool.and_eq_true, closesName_some_iff]
    simp [charBefore?, opensName_some_iff, ho, hc]
  · rintro ⟨⟨front, back, rfl, rfl⟩, hbounded⟩
    rw [isBounded, Bool.and_eq_true] at hbounded
    obtain ⟨hopens, hcloses⟩ := hbounded
    obtain ⟨before, o, rfl⟩ : ∃ before o, front = before ++ [o] := by
      rcases List.eq_nil_or_concat front with rfl | ⟨before, o, hfront⟩
      · simp [charBefore?, opensName] at hopens
      · exact ⟨before, o, by simpa using hfront⟩
    obtain ⟨c, later, rfl⟩ : ∃ c later, back = c :: later := by
      cases back with
      | nil =>
          rw [List.getElem?_eq_none (by simp; omega)] at hcloses
          simp [closesName] at hcloses
      | cons c later => exact ⟨c, later, rfl⟩
    refine ⟨before, o, c, later, by simp, by simp, ?_, ?_⟩
    · simpa [charBefore?, opensName_some_iff] using hopens
    · rw [List.getElem?_append_right (by omega)] at hcloses
      simpa [closesName_some_iff] using hcloses

/-! ## The search goes through the occurrences -/

theorem drop_succ_of_drop_eq_cons {c : Char} {cs : List Char}
    (hrest : text.drop offset = c :: cs) :
    text.drop (offset + 1) = cs ∧ text[offset]? = some c := by
  constructor
  · rw [← List.tail_drop, hrest, List.tail_cons]
  · rw [← List.head?_drop, hrest, List.head?_cons]

theorem nameOffset?_eq_find?_from (name : List Char) {rest : List Char}
    (hrest : text.drop offset = rest) :
    nameOffset? name skip (charBefore? text offset) offset rest =
      (occurrencesFrom name skip offset rest).find? (isBounded name text) := by
  induction rest generalizing skip offset with
  | nil => simp [nameOffset?, occurrencesFrom]
  | cons c cs ih =>
      obtain ⟨hlater, hchar⟩ := drop_succ_of_drop_eq_cons hrest
      have hbefore : charBefore? text (offset + 1) = some c := by
        simpa [charBefore?] using hchar
      have hclose : text[offset + name.length]? = (c :: cs)[name.length]? := by
        rw [← hrest, List.getElem?_drop]
      rw [nameOffset?.eq_def, occurrencesFrom.eq_def]
      cases skip with
      | succ skip =>
          dsimp only
          rw [← hbefore, ih hlater]
      | zero =>
          dsimp only
          split
          · rw [List.find?_cons, isBounded, hclose, ← hbefore, ih hlater]
            split
            next hbounded => rw [hbounded]
            next hfree => rw [Bool.eq_false_iff.mpr hfree]
          · rw [← hbefore, ih hlater]

/-- The first of the occurrences that stands in a field path is found. -/
theorem nameOffset?_eq_find? (name text : List Char) :
    nameOffset? name 0 none 0 text =
      (occurrences name text).find? (isBounded name text) :=
  nameOffset?_eq_find?_from name (List.drop_zero : text.drop 0 = text)

theorem occurrencesFrom_spec (hname : name ≠ []) (skip : Nat) {rest : List Char}
    (hrest : text.drop offset = rest) :
    (∀ i ∈ occurrencesFrom name skip offset rest,
        offset + skip ≤ i ∧ OccursAt name text i) ∧
      (occurrencesFrom name skip offset rest).Pairwise
        fun i j => i + name.length ≤ j := by
  have hpos := List.length_pos_iff.mpr hname
  induction rest generalizing skip offset with
  | nil => simp [occurrencesFrom]
  | cons c cs ih =>
      obtain ⟨hlater, _⟩ := drop_succ_of_drop_eq_cons hrest
      rw [occurrencesFrom.eq_def]
      cases skip with
      | succ skip =>
          obtain ⟨hmem, hpairwise⟩ := ih skip hlater
          refine ⟨?_, hpairwise⟩
          intro i hi
          have hbound := hmem i hi
          exact ⟨by omega, hbound.2⟩
      | zero =>
          dsimp only
          split
          next hprefix =>
            obtain ⟨hmem, hpairwise⟩ := ih (name.length - 1) hlater
            constructor
            · intro i hi
              rcases List.mem_cons.mp hi with rfl | hi
              · rw [occursAt_iff hname, hrest]
                exact ⟨by omega, List.isPrefixOf_iff_prefix.mp hprefix⟩
              · have hbound := hmem i hi
                exact ⟨by omega, hbound.2⟩
            · refine List.pairwise_cons.mpr ⟨?_, hpairwise⟩
              intro i hi
              have hbound := (hmem i hi).1
              omega
          next =>
            obtain ⟨hmem, hpairwise⟩ := ih 0 hlater
            refine ⟨?_, hpairwise⟩
            intro i hi
            have hbound := hmem i hi
            exact ⟨by omega, hbound.2⟩

theorem mem_occurrencesFrom_or_overlapped (hname : name ≠ []) (skip : Nat) {rest : List Char}
    (hrest : text.drop offset = rest) {i : Nat} (hi : offset + skip ≤ i)
    (hoccurs : OccursAt name text i) :
    i ∈ occurrencesFrom name skip offset rest ∨
      ∃ k ∈ occurrencesFrom name skip offset rest,
        k < i ∧ i < k + name.length := by
  have hpos := List.length_pos_iff.mpr hname
  have hstart := (occursAt_iff hname).mp hoccurs
  induction rest generalizing skip offset with
  | nil =>
      have hend : text.length ≤ offset := List.drop_eq_nil_iff.mp hrest
      rw [List.drop_of_length_le (by omega)] at hstart
      exact absurd (List.prefix_nil.mp hstart) hname
  | cons c cs ih =>
      obtain ⟨hlater, _⟩ := drop_succ_of_drop_eq_cons hrest
      rw [occurrencesFrom.eq_def]
      cases skip with
      | succ skip => exact ih skip hlater (by omega)
      | zero =>
          dsimp only
          split
          next hprefix =>
            by_cases hreach : offset + name.length ≤ i
            · rcases ih (name.length - 1) hlater (by omega) with
                hmem | ⟨k, hk, hbounds⟩
              · exact .inl (List.mem_cons_of_mem _ hmem)
              · exact .inr ⟨k, List.mem_cons_of_mem _ hk, hbounds⟩
            · by_cases heq : i = offset
              · exact .inl (heq ▸ List.mem_cons_self)
              · exact .inr ⟨offset, List.mem_cons_self, by omega, by omega⟩
          next hprefix =>
            have hne : i ≠ offset := by
              rintro rfl
              rw [hrest] at hstart
              exact hprefix (List.isPrefixOf_iff_prefix.mpr hstart)
            exact ih 0 hlater (by omega)

theorem occursAt_of_mem_occurrences (hname : name ≠ [])
    (hmem : offset ∈ occurrences name text) : OccursAt name text offset :=
  ((occurrencesFrom_spec hname 0 List.drop_zero).1 offset hmem).2

/-- Occurrences are listed from left to right, and none reaches into the next. -/
theorem pairwise_occurrences (hname : name ≠ []) (text : List Char) :
    (occurrences name text).Pairwise fun i j => i + name.length ≤ j :=
  (occurrencesFrom_spec hname 0 List.drop_zero).2

/-- An occurrence is listed unless one that is listed reaches into it. -/
theorem mem_occurrences_or_overlapped (hname : name ≠ [])
    (hoccurs : OccursAt name text offset) :
    offset ∈ occurrences name text ∨
      ∃ start ∈ occurrences name text, start < offset ∧
        offset < start + name.length :=
  mem_occurrencesFrom_or_overlapped hname 0 List.drop_zero (by omega) hoccurs

/-! ## What is found and what is missed -/

/-- An earlier occurrence of the name reaches beyond the offset. -/
def Overlapped {α : Type} (name text : List α) (offset : Nat) : Prop :=
  ∃ start, OccursAt name text start ∧ start < offset ∧
    offset < start + name.length

theorem standsAt_of_nameOffset? (hname : name ≠ [])
    (hfound : nameOffset? name 0 none 0 text = some offset) :
    StandsAt opening closing name text offset := by
  rw [nameOffset?_eq_find?] at hfound
  have hmem := List.mem_of_find?_eq_some hfound
  exact standsAt_iff.mpr
    ⟨occursAt_of_mem_occurrences hname hmem, List.find?_some hfound⟩

theorem exists_le_or_overlapped (hname : name ≠ [])
    (hstands : StandsAt opening closing name text offset) :
    (∃ first ≤ offset, nameOffset? name 0 none 0 text = some first) ∨
      Overlapped name text offset := by
  obtain ⟨hoccurs, hbounded⟩ := standsAt_iff.mp hstands
  rcases mem_occurrences_or_overlapped hname hoccurs with
    hmem | ⟨start, hstart, hbefore, hreach⟩
  · left
    rw [nameOffset?_eq_find?]
    cases hfound : (occurrences name text).find? (isBounded name text) with
    | none => exact absurd hbounded (List.find?_eq_none.mp hfound offset hmem)
    | some first =>
        refine ⟨first, ?_, rfl⟩
        have hpairwise := pairwise_occurrences hname text
        obtain ⟨_, front, back, hsplit, hearlier⟩ :=
          List.find?_eq_some_iff_append.mp hfound
        rw [hsplit] at hmem hpairwise
        rcases List.mem_append.mp hmem with hfront | hback
        · have hfree := hearlier offset hfront
          simp [hbounded] at hfree
        · rcases List.mem_cons.mp hback with rfl | hback
          · exact Nat.le_refl _
          · have hlater := (List.pairwise_cons.mp
              (List.pairwise_append.mp hpairwise).2.1).1 offset hback
            omega
  · exact .inr ⟨start, occursAt_of_mem_occurrences hname hstart, hbefore,
      hreach⟩

theorem Overlapped.reopens
    (hstands : StandsAt opening closing name text offset)
    (hoverlapped : Overlapped name text offset) : Reopens name := by
  obtain ⟨before, o, c, after, htext, rfl, ho, _⟩ := hstands
  obtain ⟨_, ⟨front, back, hsplit, rfl⟩, hbefore, hreach⟩ := hoverlapped
  -- `name` begins at `front` and again behind `o`, which it therefore holds.
  obtain ⟨middle, rfl, hrest⟩ := exists_append_of_length_le
    (htext.symm.trans hsplit) (by omega)
  have hshift : name ++ back = (middle ++ [o]) ++ (name ++ c :: after) := by
    simpa using hrest
  rw [List.length_append] at hreach
  obtain ⟨again, hname, hagain⟩ := exists_append_of_length_le hshift (by
    rw [List.length_append, List.length_singleton]
    omega)
  have hlength := congrArg List.length hname
  simp only [List.length_append, List.length_singleton] at hlength
  refine ⟨middle, o, again, by simpa using hname, ho, ?_, ?_⟩
  · rintro rfl
    rw [List.length_nil] at hlength
    omega
  · have hagainBegins : again <+: again ++ back := List.prefix_append again back
    have hnameBegins : name <+: again ++ back :=
      hagain ▸ List.prefix_append name (c :: after)
    exact List.prefix_of_prefix_length_le hagainBegins hnameBegins (by omega)

/-- At the front of a text a name does not stand in a field path, and its
occurrence there covers all that overlap it. -/
theorem length_le_of_nameOffset? (hname : name ≠ []) (hbegins : name <+: text)
    (hfound : nameOffset? name 0 none 0 text = some offset) :
    name.length ≤ offset := by
  obtain ⟨before, _, _, _, _, hoffset, _, _⟩ := standsAt_of_nameOffset? hname hfound
  have hzero : 0 ∈ occurrences name text := by
    have hoccurs : OccursAt name text 0 :=
      (occursAt_iff hname).mpr (by rwa [List.drop_zero])
    rcases mem_occurrences_or_overlapped hname hoccurs with
      hmem | ⟨_, _, hlt, _⟩
    · exact hmem
    · omega
  rw [nameOffset?_eq_find?] at hfound
  have hmem := List.mem_of_find?_eq_some hfound
  have hpairwise := pairwise_occurrences hname text
  obtain ⟨front, back, hsplit⟩ := List.append_of_mem hzero
  rw [hsplit] at hmem hpairwise
  obtain ⟨_, hback, hfront⟩ := List.pairwise_append.mp hpairwise
  rcases List.mem_append.mp hmem with hearlier | hlater
  · have hle := hfront offset hearlier 0 List.mem_cons_self
    omega
  · rcases List.mem_cons.mp hlater with rfl | hlater
    · omega
    · have hle := (List.pairwise_cons.mp hback).1 offset hlater
      omega

/-- A name that begins again is missed where it stands right behind an occurrence
at the front of a text. -/
theorem Reopens.exists_missed (hreopens : Reopens name) :
    ∃ text offset, StandsAt opening closing name text offset ∧
      nameOffset? name 0 none 0 text = none := by
  obtain ⟨front, c, back, hname, hc, hback, tail, htail⟩ := hreopens
  have hne : name ≠ [] := by simp [hname]
  have hlength := congrArg List.length hname
  have hpos := List.length_pos_iff.mpr hback
  rw [List.length_append, List.length_cons] at hlength
  have htext : name ++ (tail ++ ['}']) = front ++ c :: (name ++ ['}']) := by
    calc name ++ (tail ++ ['}'])
        = front ++ c :: (back ++ tail ++ ['}']) := by simp [hname]
      _ = front ++ c :: (name ++ ['}']) := by rw [htail]
  refine ⟨name ++ (tail ++ ['}']), front.length + 1,
    ⟨front, c, '}', [], htext, rfl, hc, by simp [closing]⟩, ?_⟩
  rw [Option.eq_none_iff_forall_ne_some]
  intro offset hfound
  have hcovered := length_le_of_nameOffset? hne (List.prefix_append _ _) hfound
  obtain ⟨before, _, _, after, hsplit, hoffset, _, _⟩ :=
    standsAt_of_nameOffset? hne hfound
  have hlengths := congrArg List.length (htext.symm.trans hsplit)
  simp only [List.length_append, List.length_cons, List.length_nil] at hlengths
  omega

/-! ## In bytes -/

def StandsInBytes (name text : String) (offset : Nat) : Prop :=
  StandsAt (Text.utf8Bytes opening) (Text.utf8Bytes closing)
    (Percent.bytesOfText name) (Percent.bytesOfText text) offset

/-- Where a name is found, in bytes. -/
def foundAt? (name text : String) : Option Nat :=
  (nameOffset? name.toList 0 none 0 text.toList).map (Text.byteOffset text)

/-- The result is the first place where the name stands, or there is none. -/
def IsFirst (name text : String) : Option Nat → Prop
  | none => ∀ offset, ¬ StandsInBytes name text offset
  | some offset =>
    StandsInBytes name text offset ∧
      ∀ earlier < offset, ¬ StandsInBytes name text earlier

theorem utf8Size_of_mem_opening : ∀ c ∈ opening, c.utf8Size = 1 := by
  rw [opening, List.forall_mem_cons, List.forall_mem_singleton]
  decide

theorem utf8Size_of_mem_closing : ∀ c ∈ closing, c.utf8Size = 1 := by
  rw [closing, List.forall_mem_cons, List.forall_mem_cons, List.forall_mem_singleton]
  decide

/-- The places where a name stands are the same in bytes and in characters. -/
theorem standsInBytes_iff {name text : String} {offset : Nat} :
    StandsInBytes name text offset ↔
      ∃ place, StandsAt opening closing name.toList text.toList place ∧
        offset = Text.byteOffset text place := by
  unfold StandsInBytes
  rw [Text.bytesOfText_eq, Text.bytesOfText_eq]
  constructor
  · rintro ⟨front, first, last, back, htext, rfl, hfirst, hlast⟩
    obtain ⟨o, ho, hfirst⟩ := (Text.mem_utf8Bytes_iff utf8Size_of_mem_opening).mp
      hfirst
    obtain ⟨c, hc, hlast⟩ := (Text.mem_utf8Bytes_iff utf8Size_of_mem_closing).mp
      hlast
    have hbytes : Text.utf8Bytes text.toList =
        front ++ (Text.utf8Bytes (o :: (name.toList ++ [c])) ++ back) := by
      rw [htext]
      simp [hfirst, hlast]
    obtain ⟨before, after, hsplit, rfl, _⟩ :=
      (Text.utf8Bytes_eq_append_iff (by simp)).mp hbytes
    refine ⟨before.length + 1,
      ⟨before, o, c, after, by simpa using hsplit, rfl, ho, hc⟩, ?_⟩
    have hbehind : text.toList = (before ++ [o]) ++ (name.toList ++ c :: after) := by
      simpa using hsplit
    have hoffset := Text.byteOffset_eq hbehind
    simpa [hfirst] using hoffset.symm
  · rintro ⟨_, ⟨before, o, c, after, htext, rfl, ho, hc⟩, rfl⟩
    obtain ⟨first, hfirst⟩ := Text.exists_utf8EncodeChar_eq_singleton
      (utf8Size_of_mem_opening o ho)
    obtain ⟨last, hlast⟩ := Text.exists_utf8EncodeChar_eq_singleton
      (utf8Size_of_mem_closing c hc)
    have hbehind : text.toList = (before ++ [o]) ++ (name.toList ++ c :: after) := by
      simpa using htext
    have hoffset := Text.byteOffset_eq hbehind
    refine ⟨Text.utf8Bytes before, first, last, Text.utf8Bytes after, ?_, ?_,
      (Text.mem_utf8Bytes_iff utf8Size_of_mem_opening).mpr ⟨o, ho, hfirst⟩,
      (Text.mem_utf8Bytes_iff utf8Size_of_mem_closing).mpr ⟨c, hc, hlast⟩⟩
    · rw [htext]
      simp [hfirst, hlast]
    · simpa [hfirst] using hoffset.symm

/-- The bytes of a name lead from where it occurs to where it ends. -/
theorem OccursAt.byteOffset_add {name : List Char} {text : String} {place : Nat}
    (hoccurs : OccursAt name text.toList place) :
    Text.byteOffset text (place + name.length) =
      Text.byteOffset text place + Template.byteLength name := by
  obtain ⟨front, back, htext, rfl⟩ := hoccurs
  rw [Text.byteOffset_add, htext, List.drop_left, List.take_left]

theorem overlapped_bytes {name text : String} {place : Nat}
    (hoverlapped : Overlapped name.toList text.toList place)
    (hplace : place < text.toList.length) :
    Overlapped (Percent.bytesOfText name) (Percent.bytesOfText text)
      (Text.byteOffset text place) := by
  obtain ⟨start, hoccurs, hbefore, hreach⟩ := hoverlapped
  have hstop := hoccurs.byteOffset_add
  obtain ⟨front, back, htext, rfl⟩ := hoccurs
  rw [Text.bytesOfText_eq, Text.bytesOfText_eq]
  refine ⟨Text.byteOffset text front.length,
    ⟨Text.utf8Bytes front, Text.utf8Bytes back, by simp [htext],
      (Text.byteOffset_eq htext).symm⟩, ?_, ?_⟩
  · exact Text.byteOffset_lt hbefore (by omega)
  · rw [Text.length_utf8Bytes, ← hstop]
    exact Text.byteOffset_lt hreach hplace

theorem standsInBytes_of_foundAt? {name text : String} (hname : name ≠ "")
    {offset : Nat} (hfound : foundAt? name text = some offset) :
    StandsInBytes name text offset := by
  obtain ⟨place, hplace, rfl⟩ := Option.map_eq_some_iff.mp hfound
  exact standsInBytes_iff.mpr
    ⟨place, standsAt_of_nameOffset? (by simpa using hname) hplace, rfl⟩

theorem isFirst_foundAt? {name : String} (hname : name ≠ "")
    (hfree : ¬ Reopens name.toList) (text : String) :
    IsFirst name text (foundAt? name text) := by
  have hchars : name.toList ≠ [] := by simpa using hname
  have hbefore (place : Nat)
      (hstands : StandsAt opening closing name.toList text.toList place) :
      ∃ first ≤ place,
        nameOffset? name.toList 0 none 0 text.toList = some first :=
    (exists_le_or_overlapped hchars hstands).resolve_right
      fun hoverlapped => hfree (hoverlapped.reopens hstands)
  cases hfound : foundAt? name text with
  | none =>
      intro offset hstands
      obtain ⟨place, hplace, rfl⟩ := standsInBytes_iff.mp hstands
      obtain ⟨first, _, hfirst⟩ := hbefore place hplace
      simp [foundAt?, hfirst] at hfound
  | some offset =>
      refine ⟨standsInBytes_of_foundAt? hname hfound, ?_⟩
      intro earlier hlt hstands
      obtain ⟨place, hplace, rfl⟩ := standsInBytes_iff.mp hstands
      obtain ⟨first, hle, hfirst⟩ := hbefore place hplace
      have hoffset : Text.byteOffset text first = offset := by
        simpa [foundAt?, hfirst] using hfound
      have hmono : Text.byteOffset text first ≤ Text.byteOffset text place :=
        Text.byteOffset_le hle
      omega

/-- Wherever a name is found it stands in a field path, and a place where it stands
comes behind the one found unless an occurrence reaches into it.  The first such
place is found in every text exactly if the name does not begin again behind one
of its own characters `{` and `.`. -/
theorem foundAt?_isFirst_iff {name : String} (hname : name ≠ "") :
    (∀ text offset, foundAt? name text = some offset →
        StandsInBytes name text offset) ∧
      (∀ text offset, StandsInBytes name text offset →
        (∃ first ≤ offset, foundAt? name text = some first) ∨
          Overlapped (Percent.bytesOfText name) (Percent.bytesOfText text)
            offset) ∧
      ((∀ text, IsFirst name text (foundAt? name text)) ↔
        ¬ Reopens name.toList) := by
  have hchars : name.toList ≠ [] := by simpa using hname
  refine ⟨?_, ?_, ?_, ?_⟩
  · exact fun text offset hfound => standsInBytes_of_foundAt? hname hfound
  · intro text offset hstands
    obtain ⟨place, hplace, rfl⟩ := standsInBytes_iff.mp hstands
    rcases exists_le_or_overlapped hchars hplace with
      ⟨first, hle, hfirst⟩ | hoverlapped
    · exact .inl ⟨Text.byteOffset text first, Text.byteOffset_le hle,
        by rw [foundAt?, hfirst, Option.map_some]⟩
    · obtain ⟨front, _, _, back, htext, rfl, _, _⟩ := hplace
      have hlength := congrArg List.length htext
      simp only [List.length_append, List.length_cons] at hlength
      exact .inr (overlapped_bytes hoverlapped (by omega))
  · intro hfirst hreopens
    obtain ⟨text, place, hstands, hnone⟩ := hreopens.exists_missed
    have hmissed := hfirst (String.ofList text)
    rw [foundAt?, String.toList_ofList, hnone] at hmissed
    apply hmissed (Text.byteOffset (String.ofList text) place)
    exact standsInBytes_iff.mpr
      ⟨place, by rwa [String.toList_ofList], rfl⟩
  · exact isFirst_foundAt? hname

theorem foundAt?_isFirst_iff_with_dotted_name :
    "a.b" ≠ "" ∧ foundAt? "a.b" "/é/{xa.b}/{a.b}" = some 12 ∧
      StandsInBytes "a.b" "/é/{xa.b}/{a.b}" 12 ∧
      ∀ text, IsFirst "a.b" text (foundAt? "a.b" text) := by
  have hname : "a.b" ≠ "" := by decide
  have hfound : foundAt? "a.b" "/é/{xa.b}/{a.b}" = some 12 := by decide +kernel
  have hfree : ¬ Reopens "a.b".toList := by
    rintro ⟨front, c, back, hname, hc, hback, hprefix⟩
    rw [show "a.b".toList = ['a', '.', 'b'] from rfl] at hname hprefix
    rcases front with _ | ⟨_, _ | ⟨_, _ | ⟨_, _⟩⟩⟩ <;>
      grind [opening]
  obtain ⟨hstands, _, hiff⟩ := foundAt?_isFirst_iff hname
  exact ⟨hname, hfound, hstands _ _ hfound, hiff.mpr hfree⟩

/-- The first place where a name stands can be missed: an occurrence that does not
stand in a field path reaches into it. -/
theorem not_forall_isFirst_foundAt? :
    ¬ ∀ name text : String, name ≠ "" →
      IsFirst name text (foundAt? name text) := by
  intro hall
  have hnone : foundAt? "a.a" "/{xa.a.a}" = none := by decide +kernel
  have hfirst := hall "a.a" "/{xa.a.a}" (by decide)
  rw [hnone] at hfirst
  apply hfirst 5
  exact standsInBytes_iff.mpr ⟨5, ⟨['/', '{', 'x', 'a'], '.', '}', [],
    by decide +kernel, by decide +kernel, by decide, by decide⟩, by decide +kernel⟩

end HttpRoutes.Projection
