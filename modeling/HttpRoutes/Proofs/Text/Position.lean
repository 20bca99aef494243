import HttpRoutes.Proofs.Request.Method
import HttpRoutes.Proofs.Text.Percent

/-!
# Positions in a text

A text can be read by a position that moves over its bytes.  A part of it can be
cut out between two positions only if both lie between characters, and whether
they do, and what is cut out, is told by the bytes in front of the second one.

A question about a character can be put to one of its bytes as long as the
answer is the same for all of them.  Questions for a certain character of one
byte are of that kind, since no byte of a longer character is one by itself.
-/

namespace HttpRoutes

open Percent (bytesOfText)

/-! ## Cutting out -/

/-- The part of a text between two positions, if both lie between characters. -/
def slice? (text : String) (start stop : Nat) : Option String :=
  if start ≤ stop ∧ String.Pos.Raw.IsValid text ⟨start⟩ ∧
      String.Pos.Raw.IsValid text ⟨stop⟩ then
    Percent.textOfBytes? (((bytesOfText text).take stop).drop start)
  else
    none

theorem byte_eq_of_front {text other : String} {front : List UInt8}
    (htext : front <+: bytesOfText text) (hother : front <+: bytesOfText other)
    {pos : Nat} (hlt : pos < front.length) :
    (bytesOfText other)[pos]? = (bytesOfText text)[pos]? := by
  obtain ⟨back, hback⟩ := htext
  obtain ⟨back', hback'⟩ := hother
  rw [← hback, ← hback', List.getElem?_append_left hlt,
    List.getElem?_append_left hlt]

theorem take_eq_of_front {front bytes : List UInt8} (hfront : front <+: bytes)
    {count : Nat} (hcount : count ≤ front.length) :
    bytes.take count = front.take count := by
  obtain ⟨back, rfl⟩ := hfront
  exact List.take_append_of_le_length hcount

/-- Whether a position lies between characters is told by what is before it. -/
theorem isValid_of_front {text other : String} {front : List UInt8}
    (htext : front <+: bytesOfText text) (hother : front <+: bytesOfText other)
    {pos : Nat} (hpos : pos ≤ front.length)
    (hvalid : String.Pos.Raw.IsValid text ⟨pos⟩) :
    String.Pos.Raw.IsValid other ⟨pos⟩ := by
  rw [String.Pos.Raw.isValid_iff_exists_append] at hvalid ⊢
  obtain ⟨before, after, rfl, hsize⟩ := hvalid
  have hlength : (bytesOfText before).length = pos := by
    rw [Percent.length_bytesOfText]
    exact (congrArg String.Pos.Raw.byteIdx hsize).symm
  have hbefore : (bytesOfText other).take pos = bytesOfText before := by
    rw [take_eq_of_front hother hpos, ← take_eq_of_front htext hpos,
      Percent.bytesOfText_append, ← hlength, List.take_left]
  have hbytes : Text.utf8Bytes other.toList =
      Text.utf8Bytes before.toList ++ (bytesOfText other).drop pos := by
    rw [← Text.bytesOfText_eq, ← Text.bytesOfText_eq, ← hbefore,
      List.take_append_drop]
  obtain ⟨back, hback, -⟩ := Text.exists_of_utf8Bytes_eq_append hbytes
  refine ⟨before, String.ofList back, ?_, hsize⟩
  rw [← String.toList_inj, hback]
  simp

theorem slice?_eq_of_front {text other : String} {front : List UInt8}
    (htext : front <+: bytesOfText text) (hother : front <+: bytesOfText other)
    {start stop : Nat} {piece : String} (hstop : stop ≤ front.length)
    (hslice : slice? text start stop = some piece) :
    slice? other start stop = some piece := by
  unfold slice? at hslice ⊢
  split at hslice
  next hcut =>
    obtain ⟨hle, hfirst, hlast⟩ := hcut
    have hstart := isValid_of_front htext hother (hle.trans hstop) hfirst
    have hend := isValid_of_front htext hother hstop hlast
    have hsame := (take_eq_of_front hother hstop).trans
      (take_eq_of_front htext hstop).symm
    rw [if_pos ⟨hle, hstart, hend⟩, hsame, hslice]
  next => contradiction

/-! ## Bytes of one character -/

/-- A predicate that tells of every byte of a character what it tells of the
character. -/
def Bytewise (p : Char → Bool) : Prop :=
  ∀ c, ∀ byte ∈ String.utf8EncodeChar c, p (.ofUInt8 byte) = p c

theorem le_of_mem_utf8EncodeChar {c : Char} (hc : 128 ≤ c.toNat) {byte : UInt8}
    (hmem : byte ∈ String.utf8EncodeChar c) : 128 ≤ byte.toNat := by
  have hval : ¬ c.val.toNat ≤ 127 := Nat.not_le_of_lt hc
  unfold String.utf8EncodeChar at hmem
  simp only [if_neg hval] at hmem
  split at hmem
  · simp only [List.mem_cons, List.not_mem_nil, or_false] at hmem
    rcases hmem with rfl | rfl <;> rw [UInt8.toNat_ofNat'] <;> omega
  · split at hmem <;>
      simp only [List.mem_cons, List.not_mem_nil, or_false] at hmem
    · rcases hmem with rfl | rfl | rfl <;> rw [UInt8.toNat_ofNat'] <;> omega
    · rcases hmem with rfl | rfl | rfl | rfl <;> rw [UInt8.toNat_ofNat'] <;> omega

theorem ofUInt8_eq_of_lt {c : Char} (hc : c.toNat < 128) :
    Char.ofUInt8 (UInt8.ofNat c.toNat) = c := by
  have hbyte : (UInt8.ofNat c.toNat).toNat = c.toNat := by
    rw [UInt8.toNat_ofNat']
    omega
  exact Char.ext (UInt32.toNat_inj.mp hbyte)

/-- Characters of one byte are their byte, and all others and their bytes are
beyond what the predicate holds of. -/
theorem bytewise_of_lt {p : Char → Bool}
    (hlt : ∀ c, p c = true → c.toNat < 128) : Bytewise p := by
  intro c byte hmem
  by_cases hc : c.toNat < 128
  · rw [utf8EncodeChar_of_lt hc, List.mem_singleton] at hmem
    rw [hmem, ofUInt8_eq_of_lt hc]
  · have hbyte : 128 ≤ (Char.ofUInt8 byte).toNat :=
      le_of_mem_utf8EncodeChar (Nat.le_of_not_lt hc) hmem
    have hfalse (d : Char) (hd : 128 ≤ d.toNat) : p d = false := by
      rw [Bool.eq_false_iff]
      exact fun hpd => absurd (hlt d hpd) (Nat.not_lt_of_le hd)
    rw [hfalse c (Nat.le_of_not_lt hc), hfalse _ hbyte]

theorem bytewise_eq {d : Char} (hd : d.toNat < 128) :
    Bytewise fun c => decide (c = d) :=
  bytewise_of_lt fun _ hc => of_decide_eq_true hc ▸ hd

theorem takeWhile_utf8Bytes {p : Char → Bool} (hp : Bytewise p) (cs : List Char) :
    (Text.utf8Bytes cs).takeWhile (fun byte => p (.ofUInt8 byte)) =
      Text.utf8Bytes (cs.takeWhile p) := by
  induction cs with
  | nil => rfl
  | cons c cs ih =>
      rw [Text.utf8Bytes_cons, List.takeWhile_cons]
      cases hpc : p c with
      | true =>
          rw [List.takeWhile_append_of_pos, ih]
          · rfl
          · intro byte hmem
            rw [hp c byte hmem, hpc]
      | false =>
          obtain ⟨byte, bytes, hbytes, -⟩ := Text.exists_cons_of_utf8EncodeChar c
          have hbyte : p (.ofUInt8 byte) = false := by
            rw [hp c byte (by simp [hbytes]), hpc]
          simp [hbytes, hbyte]

/-! ## Positions between characters -/

/-- What is left of the text at the position. -/
def Remains (text : String) (pos : Nat) (cs : List Char) : Prop :=
  ∃ front, text.toList = front ++ cs ∧ Template.byteLength front = pos

theorem remains_zero (text : String) : Remains text 0 text.toList :=
  ⟨[], rfl, rfl⟩

theorem byteLength_cons_of_lt {c : Char} (hc : c.toNat < 128) (cs : List Char) :
    Template.byteLength (c :: cs) = 1 + Template.byteLength cs := by
  rw [← Text.length_utf8Bytes, ← Text.length_utf8Bytes, Text.utf8Bytes_cons,
    utf8EncodeChar_of_lt hc, List.length_append, List.length_singleton]

theorem byteLength_ne_zero {front : List Char} (hne : front ≠ []) :
    Template.byteLength front ≠ 0 := by
  obtain ⟨c, front, rfl⟩ := List.exists_cons_of_ne_nil hne
  have hpos := c.utf8Size_pos
  rw [Template.byteLength]
  omega

namespace Remains

variable {text : String} {pos : Nat} {cs : List Char}

theorem isValid (hremains : Remains text pos cs) :
    String.Pos.Raw.IsValid text ⟨pos⟩ := by
  obtain ⟨front, htext, rfl⟩ := hremains
  have hoffset := Text.byteOffset_eq htext
  rw [Text.length_utf8Bytes] at hoffset
  exact hoffset ▸ Text.isValid_byteOffset text front.length

theorem bytes_eq (hremains : Remains text pos cs) :
    ∃ front, bytesOfText text = front ++ Text.utf8Bytes cs ∧ front.length = pos := by
  obtain ⟨front, htext, rfl⟩ := hremains
  refine ⟨Text.utf8Bytes front, ?_, Text.length_utf8Bytes front⟩
  rw [Text.bytesOfText_eq, htext, Text.utf8Bytes_append]

theorem append {front tail : List Char}
    (hremains : Remains text pos (front ++ tail)) :
    Remains text (pos + Template.byteLength front) tail := by
  obtain ⟨before, htext, rfl⟩ := hremains
  refine ⟨before ++ front, by rw [htext, List.append_assoc], ?_⟩
  rw [← Text.length_utf8Bytes, ← Text.length_utf8Bytes, ← Text.length_utf8Bytes,
    Text.utf8Bytes_append, List.length_append]

theorem cons {c : Char} (hc : c.toNat < 128)
    (hremains : Remains text pos (c :: cs)) : Remains text (pos + 1) cs := by
  have happend : Remains text pos ([c] ++ cs) := hremains
  have hsize : Template.byteLength [c] = 1 := byteLength_cons_of_lt hc []
  exact hsize ▸ happend.append

theorem offset_eq (hremains : Remains text pos cs) :
    Template.byteLength text.toList - Template.byteLength cs = pos := by
  obtain ⟨front, htext, rfl⟩ := hremains
  rw [htext, ← Text.length_utf8Bytes, ← Text.length_utf8Bytes,
    ← Text.length_utf8Bytes, Text.utf8Bytes_append, List.length_append,
    Nat.add_sub_cancel]

theorem dropWhile (hremains : Remains text pos cs) (p : Char → Bool) :
    Remains text (pos + Template.byteLength (cs.takeWhile p)) (cs.dropWhile p) := by
  apply append
  rwa [List.takeWhile_append_dropWhile]

/-- What a bytewise predicate tells of the next byte. -/
theorem any_next (hremains : Remains text pos cs) {p : Char → Bool}
    (hp : Bytewise p) :
    ((bytesOfText text)[pos]?.map Char.ofUInt8).any p = cs.head?.any p := by
  obtain ⟨front, hbytes, rfl⟩ := hremains.bytes_eq
  rw [hbytes, List.getElem?_append_right (Nat.le_refl _), Nat.sub_self,
    ← List.head?_eq_getElem?]
  cases cs with
  | nil => rfl
  | cons c cs =>
      obtain ⟨byte, bytes, hbytes, -⟩ := Text.exists_cons_of_utf8EncodeChar c
      have hbyte := hp c byte (by simp [hbytes])
      simp [hbytes, hbyte]

theorem next_eq_iff (hremains : Remains text pos cs) {c : Char}
    (hc : c.toNat < 128) :
    (bytesOfText text)[pos]?.map Char.ofUInt8 = some c ↔ ∃ tail, cs = c :: tail := by
  have hany := hremains.any_next (bytewise_eq hc)
  have hsome (next : Option Char) :
      next = some c ↔ next.any (fun d => decide (d = c)) = true := by
    cases next <;> simp
  rw [hsome, hany, ← hsome]
  cases cs <;> simp

theorem next_eq_none_iff (hremains : Remains text pos cs) :
    (bytesOfText text)[pos]?.map Char.ofUInt8 = none ↔ cs = [] := by
  have hany := hremains.any_next (p := fun _ => true) fun _ _ _ => rfl
  rw [← Option.not_isSome_iff_eq_none, ← Option.any_true, hany]
  cases cs <;> simp

theorem slice?_eq {front tail : List Char}
    (hremains : Remains text pos (front ++ tail)) :
    slice? text pos (pos + Template.byteLength front) =
      some (String.ofList front) := by
  have hcut : pos ≤ pos + Template.byteLength front ∧
      String.Pos.Raw.IsValid text ⟨pos⟩ ∧
        String.Pos.Raw.IsValid text ⟨pos + Template.byteLength front⟩ :=
    ⟨Nat.le_add_right _ _, hremains.isValid, hremains.append.isValid⟩
  obtain ⟨before, hbytes, hpos⟩ := hremains.bytes_eq
  rw [slice?, if_pos hcut, Percent.textOfBytes?_eq_some_iff, Text.bytesOfText_eq,
    String.toList_ofList, hbytes, Text.utf8Bytes_append, ← Text.length_utf8Bytes,
    ← hpos]
  rw [List.take_length_add_append, List.drop_left, List.take_left]

end Remains

end HttpRoutes
