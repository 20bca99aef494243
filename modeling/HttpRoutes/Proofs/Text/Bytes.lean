import HttpRoutes.Template.Parser
import HttpRoutes.Text.Percent

/-!
# Texts as bytes

A text is stored as the bytes of its characters.  The byte that begins a
character begins nothing but characters, and no character's bytes begin those of
another.  So wherever the bytes of a text occur among those of another, the text
itself occurs there, and an offset in bytes is an offset in characters.
-/

namespace HttpRoutes.Text

def utf8Bytes (cs : List Char) : List UInt8 :=
  cs.flatMap String.utf8EncodeChar

theorem bytesOfText_eq (text : String) :
    Percent.bytesOfText text = utf8Bytes text.toList := by
  have hbytes : text.toByteArray = text.toList.utf8Encode := by
    rw [← String.toByteArray_ofList, String.ofList_toList]
  rw [Percent.bytesOfText, String.toUTF8_eq_toByteArray, hbytes,
    List.utf8Encode, List.data_toByteArray, utf8Bytes]

@[simp] theorem utf8Bytes_nil : utf8Bytes [] = [] := rfl

@[simp] theorem utf8Bytes_cons (c : Char) (cs : List Char) :
    utf8Bytes (c :: cs) = String.utf8EncodeChar c ++ utf8Bytes cs := rfl

@[simp] theorem utf8Bytes_append (front back : List Char) :
    utf8Bytes (front ++ back) = utf8Bytes front ++ utf8Bytes back :=
  List.flatMap_append

theorem length_utf8Bytes (cs : List Char) :
    (utf8Bytes cs).length = Template.byteLength cs := by
  induction cs with
  | nil => rfl
  | cons c cs ih =>
      rw [utf8Bytes_cons, List.length_append, String.length_utf8EncodeChar, ih,
        Template.byteLength]

/-- A character of one byte. -/
theorem exists_utf8EncodeChar_eq_singleton {c : Char} (hsize : c.utf8Size = 1) :
    ∃ byte, String.utf8EncodeChar c = [byte] :=
  ⟨_, String.utf8EncodeChar_eq_singleton hsize⟩

theorem mem_utf8Bytes_iff {cs : List Char} (hsize : ∀ c ∈ cs, c.utf8Size = 1)
    {byte : UInt8} :
    byte ∈ utf8Bytes cs ↔ ∃ c ∈ cs, String.utf8EncodeChar c = [byte] := by
  rw [utf8Bytes, List.mem_flatMap]
  refine exists_congr fun c => and_congr_right fun hc => ?_
  obtain ⟨other, hother⟩ := exists_utf8EncodeChar_eq_singleton (hsize c hc)
  simp [hother, eq_comm]

/-! ## Where characters begin -/

theorem exists_cons_of_utf8EncodeChar (c : Char) :
    ∃ byte bytes, String.utf8EncodeChar c = byte :: bytes ∧
      byte.IsUTF8FirstByte ∧ ∀ other ∈ bytes, ¬ other.IsUTF8FirstByte := by
  cases hbytes : String.utf8EncodeChar c with
  | nil =>
      have hlength := String.length_utf8EncodeChar c
      have hpos := c.utf8Size_pos
      rw [hbytes, List.length_nil] at hlength
      omega
  | cons byte bytes =>
      have hfirst (i : Nat) (hi : i < (byte :: bytes).length) :
          (byte :: bytes)[i].IsUTF8FirstByte ↔ i = 0 := by
        have hi' : i < (String.utf8EncodeChar c).length := hbytes ▸ hi
        have hiff := @UInt8.isUTF8FirstByte_getElem_utf8EncodeChar c i hi'
        simpa only [hbytes] using hiff
      refine ⟨byte, bytes, rfl, (hfirst 0 (by simp)).mpr rfl, ?_⟩
      intro other hmem hother
      obtain ⟨i, hi, rfl⟩ := List.mem_iff_getElem.mp hmem
      have hzero := (hfirst (i + 1) (by simpa using hi)).mp hother
      omega

/-- The bytes of a character begin those of no other one. -/
theorem utf8EncodeChar_append_inj {c d : Char} {front back : List UInt8}
    (heq : String.utf8EncodeChar c ++ front = String.utf8EncodeChar d ++ back) :
    c = d ∧ front = back := by
  have hdecode (e : Char) (bytes : List UInt8) :
      (String.utf8EncodeChar e ++ bytes).toByteArray.utf8DecodeChar? 0 =
        some e := by
    rw [List.toByteArray_append]
    exact ByteArray.utf8DecodeChar?_utf8EncodeChar_append
  have hsame := hdecode c front
  rw [heq, hdecode d back] at hsame
  obtain rfl := Option.some.inj hsame
  exact ⟨rfl, List.append_cancel_left heq⟩

theorem exists_of_utf8Bytes_eq_append {text front : List Char}
    {rest : List UInt8} (heq : utf8Bytes text = utf8Bytes front ++ rest) :
    ∃ back, text = front ++ back ∧ utf8Bytes back = rest := by
  induction front generalizing text with
  | nil => exact ⟨text, rfl, heq⟩
  | cons c front ih =>
      cases text with
      | nil =>
          obtain ⟨byte, bytes, hbytes, _, _⟩ := exists_cons_of_utf8EncodeChar c
          simp [hbytes] at heq
      | cons d text =>
          rw [utf8Bytes_cons, utf8Bytes_cons, List.append_assoc] at heq
          obtain ⟨rfl, hrest⟩ := utf8EncodeChar_append_inj heq
          obtain ⟨back, rfl, hback⟩ := ih hrest
          exact ⟨back, rfl, hback⟩

/-- A byte that begins a character stands in front of whole characters. -/
theorem exists_of_utf8Bytes_eq_append_cons {text : List Char}
    {front rest : List UInt8} {byte : UInt8} (hfirst : byte.IsUTF8FirstByte)
    (heq : utf8Bytes text = front ++ byte :: rest) :
    ∃ before after, text = before ++ after ∧ utf8Bytes before = front ∧
      utf8Bytes after = byte :: rest := by
  induction text generalizing front with
  | nil => simp at heq
  | cons c text ih =>
      cases front with
      | nil => exact ⟨[], c :: text, rfl, rfl, heq⟩
      | cons other front =>
          obtain ⟨lead, others, hbytes, _, hothers⟩ :=
            exists_cons_of_utf8EncodeChar c
          rw [utf8Bytes_cons, hbytes, List.cons_append, List.cons_append,
            List.cons.injEq] at heq
          obtain ⟨rfl, heq⟩ := heq
          -- The byte cannot lie within `c`, so what follows `c` holds it.
          rcases List.append_eq_append_iff.mp heq with
            ⟨middle, rfl, htext⟩ | ⟨middle, hsplit, hmiddle⟩
          · obtain ⟨before, after, rfl, hbefore, hafter⟩ := ih htext
            refine ⟨c :: before, after, rfl, ?_, hafter⟩
            rw [utf8Bytes_cons, hbytes, hbefore, List.cons_append]
          · cases middle with
            | nil =>
                have hrest : utf8Bytes text = [] ++ byte :: rest := hmiddle.symm
                obtain ⟨before, after, rfl, hbefore, hafter⟩ := ih hrest
                refine ⟨c :: before, after, rfl, ?_, hafter⟩
                rw [utf8Bytes_cons, hbytes, hbefore, hsplit, List.append_nil,
                  List.append_nil]
            | cons next middle =>
                rw [List.cons_append, List.cons.injEq] at hmiddle
                have hmem : byte ∈ others := by simp [hsplit, hmiddle.1]
                exact absurd hfirst (hothers byte hmem)

/-- Where the bytes of a text occur, the text itself does. -/
theorem utf8Bytes_eq_append_iff {text name : List Char} (hname : name ≠ [])
    {front back : List UInt8} :
    utf8Bytes text = front ++ (utf8Bytes name ++ back) ↔
      ∃ before after, text = before ++ (name ++ after) ∧
        utf8Bytes before = front ∧ utf8Bytes after = back := by
  constructor
  · intro heq
    obtain ⟨c, others, rfl⟩ := List.exists_cons_of_ne_nil hname
    obtain ⟨byte, bytes, hbytes, hfirst, _⟩ := exists_cons_of_utf8EncodeChar c
    have hcons : utf8Bytes (c :: others) ++ back =
        byte :: (bytes ++ (utf8Bytes others ++ back)) := by
      simp [hbytes]
    rw [hcons] at heq
    obtain ⟨before, later, rfl, hbefore, hlater⟩ :=
      exists_of_utf8Bytes_eq_append_cons hfirst heq
    rw [← hcons] at hlater
    obtain ⟨after, rfl, hafter⟩ := exists_of_utf8Bytes_eq_append hlater
    exact ⟨before, after, rfl, hbefore, hafter⟩
  · rintro ⟨before, after, rfl, rfl, rfl⟩
    simp

/-! ## Offsets -/

/-- How many bytes precede the character at an offset. -/
def byteOffset (text : String) (offset : Nat) : Nat :=
  Template.byteLength (text.toList.take offset)

theorem byteOffset_eq {text : String} {front back : List Char}
    (htext : text.toList = front ++ back) :
    byteOffset text front.length = (utf8Bytes front).length := by
  rw [byteOffset, htext, List.take_left, length_utf8Bytes]

theorem byteOffset_add {text : String} {start length : Nat} :
    byteOffset text (start + length) =
      byteOffset text start +
        Template.byteLength ((text.toList.drop start).take length) := by
  rw [byteOffset, List.take_add, ← length_utf8Bytes, utf8Bytes_append,
    List.length_append, length_utf8Bytes, length_utf8Bytes, byteOffset]

theorem byteOffset_le {text : String} {start stop : Nat} (hle : start ≤ stop) :
    byteOffset text start ≤ byteOffset text stop := by
  obtain ⟨length, rfl⟩ := Nat.exists_eq_add_of_le hle
  rw [byteOffset_add]
  omega

theorem byteOffset_lt {text : String} {start stop : Nat} (hlt : start < stop)
    (hstart : start < text.toList.length) :
    byteOffset text start < byteOffset text stop := by
  obtain ⟨length, rfl⟩ := Nat.exists_eq_add_of_lt hlt
  rw [Nat.add_right_comm, Nat.add_assoc, byteOffset_add,
    List.drop_eq_getElem_cons hstart, Nat.add_comm 1, List.take_succ_cons,
    Template.byteLength]
  have hpos := (text.toList[start]).utf8Size_pos
  omega

theorem isValid_byteOffset (text : String) (offset : Nat) :
    String.Pos.Raw.IsValid text ⟨byteOffset text offset⟩ := by
  rw [String.Pos.Raw.isValid_iff_exists_append]
  refine ⟨String.ofList (text.toList.take offset),
    String.ofList (text.toList.drop offset), ?_, ?_⟩
  · rw [← String.ofList_append, List.take_append_drop, String.ofList_toList]
  · have hsize : (String.ofList (text.toList.take offset)).utf8ByteSize =
        (utf8Bytes (text.toList.take offset)).length := by
      rw [← String.size_toByteArray, String.toByteArray_ofList]
      exact List.size_toByteArray
    rw [length_utf8Bytes] at hsize
    exact congrArg String.Pos.Raw.mk hsize.symm

end HttpRoutes.Text
