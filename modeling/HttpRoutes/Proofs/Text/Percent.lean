import HttpRoutes.Proofs.Request.Slashes
import HttpRoutes.Proofs.Text.Bytes
import Mathlib.Data.FinEnum

/-!
# Escapes and the slashes between them

Decoding cuts a value at its encoded slashes and decodes the pieces on their
own.  No escape is lost at a cut, because an encoded slash begins with a `%`,
and a `%` is no hexadecimal digit: no piece ends within an escape.  So the glued
pieces are the value with every escape decoded but those of a slash, and
decoding everything is the same with the slash itself in the place of `%2F`.

A slash is no hexadecimal digit either.  So the segments of a value are decoded
each on its own as well, and none of them gains a slash.
-/

namespace HttpRoutes.Percent

/-- The byte of `/`. -/
def slashByte : UInt8 := 47

/-- The bytes of `%2F`. -/
def encodedSlash : List UInt8 := [mark, 50, 70]

/-- Replace every escape by the byte it stands for, and `%2F` and `%2f` by
`slash`. -/
def decodeEscapes (slash : List UInt8) : List UInt8 → List UInt8
  | [] => []
  | [a] => [a]
  | [a, b] => [a, b]
  | a :: b :: c :: bytes =>
    if a = mark ∧ b = 50 ∧ (c = 70 ∨ c = 102) then
      slash ++ decodeEscapes slash bytes
    else if a = mark then
      match hexValue? b, hexValue? c with
      | some high, some low => (16 * high + low) :: decodeEscapes slash bytes
      | _, _ => a :: decodeEscapes slash (b :: c :: bytes)
    else
      a :: decodeEscapes slash (b :: c :: bytes)

/-! ## Bytes and their escapes -/

/-- An escape stands at the front. -/
def BeginsEscape : List UInt8 → Prop
  | a :: b :: c :: _ =>
    a = mark ∧ ∃ high low, hexValue? b = some high ∧ hexValue? c = some low
  | _ => False

/-- Bytes as they are read from the left, one escape or other byte at a time. -/
inductive Escaped : List UInt8 → Prop where
  | nil : Escaped []
  | slash {digit : UInt8} {rest : List UInt8} (hdigit : digit = 70 ∨ digit = 102)
      (hrest : Escaped rest) : Escaped (mark :: 50 :: digit :: rest)
  | escape {first second high low : UInt8} {rest : List UInt8}
      (hhigh : hexValue? first = some high) (hlow : hexValue? second = some low)
      (hslash : ¬ (first = 50 ∧ (second = 70 ∨ second = 102)))
      (hrest : Escaped rest) : Escaped (mark :: first :: second :: rest)
  | byte {a : UInt8} {rest : List UInt8} (hbegins : ¬ BeginsEscape (a :: rest))
      (hrest : Escaped rest) : Escaped (a :: rest)

theorem escaped (bytes : List UInt8) : Escaped bytes := by
  induction bytes using decodeEscapes.induct with
  | case1 => exact .nil
  | case2 a => exact .byte (by simp [BeginsEscape]) .nil
  | case3 a b =>
      exact .byte (by simp [BeginsEscape]) (.byte (by simp [BeginsEscape]) .nil)
  | case4 a b c bytes hslash ih =>
      obtain ⟨rfl, rfl, hdigit⟩ := hslash
      exact .slash hdigit ih
  | case5 b c bytes high low hlow hhigh hslash ih =>
      exact .escape hhigh hlow (fun hdigits => hslash ⟨rfl, hdigits⟩) ih
  | case6 b c bytes hdigits hslash ih =>
      refine .byte ?_ ih
      rintro ⟨-, high, low, hhigh, hlow⟩
      exact hdigits high low hhigh hlow
  | case7 a b c bytes hslash hmark ih =>
      exact .byte (fun hbegins => hmark hbegins.1) ih

theorem BeginsEscape.of_isPrefix {front bytes : List UInt8}
    (hbegins : BeginsEscape front) (hfront : front <+: bytes) :
    BeginsEscape bytes := by
  obtain ⟨back, rfl⟩ := hfront
  match front, hbegins with
  | _ :: _ :: _ :: _, hbegins => exact hbegins

/-- An escape does not run into a byte that is no digit. -/
theorem BeginsEscape.of_append_cons {a stop : UInt8} {front back : List UInt8}
    (hstop : hexValue? stop = none)
    (hbegins : BeginsEscape (a :: (front ++ stop :: back))) :
    BeginsEscape (a :: front) := by
  match front, hbegins with
  | [], hbegins =>
      cases back with
      | nil => exact hbegins
      | cons c back =>
          obtain ⟨-, high, low, hhigh, -⟩ := hbegins
          rw [hstop] at hhigh
          contradiction
  | [b], hbegins =>
      obtain ⟨-, high, low, -, hlow⟩ := hbegins
      rw [hstop] at hlow
      contradiction
  | _ :: _ :: _, hbegins => exact hbegins

theorem hexValue?_mark : hexValue? mark = none := rfl

theorem hexValue?_slashByte : hexValue? slashByte = none := rfl

theorem all_hexValue?_le : ∀ byte : UInt8, (hexValue? byte).all (· ≤ 15) := by
  decide +kernel

theorem hexValue?_eq_two_iff :
    ∀ byte : UInt8, hexValue? byte = some 2 ↔ byte = 50 := by
  decide +kernel

theorem hexValue?_eq_fifteen_iff :
    ∀ byte : UInt8, hexValue? byte = some 15 ↔ byte = 70 ∨ byte = 102 := by
  decide +kernel

/-- The only escapes of a slash are `%2F` and `%2f`. -/
theorem escape_eq_slashByte_iff {first second high low : UInt8}
    (hhigh : hexValue? first = some high) (hlow : hexValue? second = some low) :
    16 * high + low = slashByte ↔ first = 50 ∧ (second = 70 ∨ second = 102) := by
  have hvalue : 16 * high + low = slashByte ↔ high = 2 ∧ low = 15 := by
    have hhighLe : high ≤ 15 := by simpa [hhigh] using all_hexValue?_le first
    have hlowLe : low ≤ 15 := by simpa [hlow] using all_hexValue?_le second
    have hhighNat : high.toNat ≤ 15 := UInt8.le_iff_toNat_le.mp hhighLe
    have hlowNat : low.toNat ≤ 15 := UInt8.le_iff_toNat_le.mp hlowLe
    have hsum : (16 * high + low).toNat = 16 * high.toNat + low.toNat := by
      have hsixteen : (16 : UInt8).toNat = 16 := rfl
      rw [UInt8.toNat_add, UInt8.toNat_mul, hsixteen]
      omega
    rw [← UInt8.toNat_inj, ← UInt8.toNat_inj, ← UInt8.toNat_inj, hsum]
    change _ = 47 ↔ _ = 2 ∧ _ = 15
    omega
  rw [hvalue, ← hexValue?_eq_two_iff, ← hexValue?_eq_fifteen_iff, hhigh, hlow,
    Option.some_inj, Option.some_inj]

/-! ## Decoding from the left -/

theorem decodeEscapes_slash (slash : List UInt8) {digit : UInt8}
    (hdigit : digit = 70 ∨ digit = 102) (rest : List UInt8) :
    decodeEscapes slash (mark :: 50 :: digit :: rest) =
      slash ++ decodeEscapes slash rest := by
  rw [decodeEscapes, if_pos ⟨rfl, rfl, hdigit⟩]

theorem decodeEscapes_escape (slash : List UInt8)
    {first second high low : UInt8} (hhigh : hexValue? first = some high)
    (hlow : hexValue? second = some low)
    (hslash : ¬ (first = 50 ∧ (second = 70 ∨ second = 102))) (rest : List UInt8) :
    decodeEscapes slash (mark :: first :: second :: rest) =
      (16 * high + low) :: decodeEscapes slash rest := by
  rw [decodeEscapes, if_neg (fun hdigits => hslash hdigits.2), if_pos rfl, hhigh,
    hlow]

theorem decodeEscapes_byte (slash : List UInt8) {a : UInt8} {rest : List UInt8}
    (hbegins : ¬ BeginsEscape (a :: rest)) :
    decodeEscapes slash (a :: rest) = a :: decodeEscapes slash rest := by
  match rest with
  | [] => rfl
  | [b] => rfl
  | b :: c :: rest =>
      have hdigits (hmark : a = mark) (high low : UInt8)
          (hhigh : hexValue? b = some high) : hexValue? c ≠ some low :=
        fun hlow => hbegins ⟨hmark, high, low, hhigh, hlow⟩
      rw [decodeEscapes, if_neg]
      · by_cases hmark : a = mark
        · rw [if_pos hmark]
          split
          next high low hhigh hlow => exact absurd hlow (hdigits hmark _ _ hhigh)
          next => rfl
        · rw [if_neg hmark]
      · rintro ⟨hmark, hfirst, hsecond⟩
        exact hdigits hmark 2 15 ((hexValue?_eq_two_iff b).mpr hfirst)
          ((hexValue?_eq_fifteen_iff c).mpr hsecond)

/-- Decoding everything puts a slash for `%2F`. -/
theorem decodeBytes_eq (bytes : List UInt8) :
    decodeBytes bytes = decodeEscapes [slashByte] bytes := by
  induction bytes using decodeBytes.induct with
  | case1 => rfl
  | case2 a => rfl
  | case3 a b => rfl
  | case4 b c bytes high low hlow hhigh ih =>
      have hvalue := escape_eq_slashByte_iff hhigh hlow
      by_cases hslash : b = 50 ∧ (c = 70 ∨ c = 102)
      · rw [decodeBytes, if_pos rfl, hhigh, hlow, hslash.1,
          decodeEscapes_slash _ hslash.2, ih, ← hvalue.mpr hslash]
        rfl
      · rw [decodeBytes, if_pos rfl, hhigh, hlow,
          decodeEscapes_escape _ hhigh hlow hslash, ih]
  | case5 b c bytes hdigits ih =>
      have hbegins : ¬ BeginsEscape (mark :: b :: c :: bytes) := by
        rintro ⟨-, high, low, hhigh, hlow⟩
        exact hdigits high low hhigh hlow
      rw [decodeBytes, if_pos rfl, decodeEscapes_byte _ hbegins, ← ih]
      split
      next high low hhigh hlow => exact absurd hlow (hdigits high low hhigh)
      next => rfl
  | case6 a b c bytes hmark ih =>
      have hbegins : ¬ BeginsEscape (a :: b :: c :: bytes) :=
        fun hbegins => hmark hbegins.1
      rw [decodeBytes, if_neg hmark, ih, decodeEscapes_byte _ hbegins]

/-- The bytes after a byte that is no digit are decoded on their own. -/
theorem decodeEscapes_append_cons (slash : List UInt8) {stop : UInt8}
    (hstop : hexValue? stop = none) (front back : List UInt8) :
    decodeEscapes slash (front ++ stop :: back) =
      decodeEscapes slash front ++ decodeEscapes slash (stop :: back) := by
  induction escaped front with
  | nil => rfl
  | slash hdigit hrest ih =>
      rw [List.cons_append, List.cons_append, List.cons_append,
        decodeEscapes_slash _ hdigit, decodeEscapes_slash _ hdigit, ih,
        List.append_assoc]
  | escape hhigh hlow hslash hrest ih =>
      rw [List.cons_append, List.cons_append, List.cons_append,
        decodeEscapes_escape _ hhigh hlow hslash,
        decodeEscapes_escape _ hhigh hlow hslash, ih, List.cons_append]
  | byte hbegins hrest ih =>
      rw [List.cons_append, decodeEscapes_byte _ hbegins,
        decodeEscapes_byte _ fun happend => hbegins (happend.of_append_cons hstop),
        ih, List.cons_append]

theorem decodeEscapes_intercalate (slash : List UInt8)
    (pieces : List (List UInt8)) :
    decodeEscapes slash ([slashByte].intercalate pieces) =
      [slashByte].intercalate (pieces.map (decodeEscapes slash)) := by
  have hslash (rest : List UInt8) : decodeEscapes slash (slashByte :: rest) =
      slashByte :: decodeEscapes slash rest :=
    decodeEscapes_byte slash fun hbegins => by
      match rest, hbegins with
      | _ :: _ :: _, hbegins => exact absurd hbegins.1 (by decide)
  induction pieces with
  | nil => rfl
  | cons piece pieces ih =>
      cases pieces with
      | nil => simp
      | cons other others =>
          rw [List.intercalate_cons_cons, List.append_assoc, List.singleton_append,
            decodeEscapes_append_cons slash hexValue?_slashByte, hslash, ih]
          simp [List.intercalate_cons_cons]

theorem slashByte_not_mem_decodeEscapes {slash bytes : List UInt8}
    (hslash : slashByte ∉ slash) (hbytes : slashByte ∉ bytes) :
    slashByte ∉ decodeEscapes slash bytes := by
  induction escaped bytes with
  | nil => exact hbytes
  | slash hdigit hrest ih =>
      rw [decodeEscapes_slash _ hdigit, List.mem_append, not_or]
      exact ⟨hslash, ih (by simp_all)⟩
  | escape hhigh hlow hnot hrest ih =>
      rw [decodeEscapes_escape _ hhigh hlow hnot, List.mem_cons, not_or]
      have hvalue := mt (escape_eq_slashByte_iff hhigh hlow).mp hnot
      exact ⟨Ne.symm hvalue, ih (by simp_all)⟩
  | byte hbegins hrest ih =>
      rw [decodeEscapes_byte _ hbegins, List.mem_cons, not_or]
      rw [List.mem_cons, not_or] at hbytes
      exact ⟨hbytes.1, ih hbytes.2⟩

/-- Pieces between slashes are decoded each on its own. -/
theorem splitOn_decodeEscapes {slash : List UInt8} (hslash : slashByte ∉ slash)
    {pieces : List (List UInt8)} (hpieces : ∀ piece ∈ pieces, slashByte ∉ piece)
    (hne : pieces ≠ []) :
    (decodeEscapes slash ([slashByte].intercalate pieces)).splitOn slashByte =
      pieces.map (decodeEscapes slash) := by
  rw [decodeEscapes_intercalate]
  apply List.splitOn_intercalate
  · intro decoded hmem
    obtain ⟨piece, hpiece, rfl⟩ := List.mem_map.mp hmem
    exact slashByte_not_mem_decodeEscapes hslash (hpieces piece hpiece)
  · simpa using hne

/-! ## Cutting at encoded slashes -/

theorem splitOnEncodedSlash_slash {digit : UInt8}
    (hdigit : digit = 70 ∨ digit = 102) (rest : List UInt8) :
    splitOnEncodedSlash (mark :: 50 :: digit :: rest) =
      [] :: splitOnEncodedSlash rest := by
  rw [splitOnEncodedSlash, if_pos ⟨rfl, rfl, hdigit⟩]

theorem splitOnEncodedSlash_cons {a : UInt8} {rest piece : List UInt8}
    {pieces : List (List UInt8)}
    (hnot : ∀ digit later, a = mark → rest = 50 :: digit :: later →
      ¬ (digit = 70 ∨ digit = 102))
    (hrest : splitOnEncodedSlash rest = piece :: pieces) :
    splitOnEncodedSlash (a :: rest) = (a :: piece) :: pieces := by
  match rest with
  | [] =>
      cases hrest
      rfl
  | [b] =>
      cases hrest
      rfl
  | b :: c :: rest =>
      rw [splitOnEncodedSlash, if_neg, hrest]
      rintro ⟨hmark, rfl, hdigit⟩
      exact hnot c rest hmark rfl hdigit

theorem splitOnEncodedSlash_escape {first second high low : UInt8}
    {rest piece : List UInt8} {pieces : List (List UInt8)}
    (hhigh : hexValue? first = some high) (hlow : hexValue? second = some low)
    (hslash : ¬ (first = 50 ∧ (second = 70 ∨ second = 102)))
    (hrest : splitOnEncodedSlash rest = piece :: pieces) :
    splitOnEncodedSlash (mark :: first :: second :: rest) =
      (mark :: first :: second :: piece) :: pieces := by
  -- The digits are no marks, so nothing is cut at them.
  have hdigit {digit value : UInt8} (hvalue : hexValue? digit = some value) :
      digit ≠ mark := by
    rintro rfl
    rw [hexValue?_mark] at hvalue
    contradiction
  refine splitOnEncodedSlash_cons ?_ (splitOnEncodedSlash_cons ?_
    (splitOnEncodedSlash_cons ?_ hrest))
  · rintro digit later - ⟨⟩ hdigits
    exact hslash ⟨rfl, hdigits⟩
  · exact fun _ _ hmark => absurd hmark (hdigit hhigh)
  · exact fun _ _ hmark => absurd hmark (hdigit hlow)

theorem splitOnEncodedSlash_byte {a : UInt8} {rest piece : List UInt8}
    {pieces : List (List UInt8)} (hbegins : ¬ BeginsEscape (a :: rest))
    (hrest : splitOnEncodedSlash rest = piece :: pieces) :
    splitOnEncodedSlash (a :: rest) = (a :: piece) :: pieces := by
  refine splitOnEncodedSlash_cons ?_ hrest
  rintro digit later hmark rfl hdigit
  exact hbegins ⟨hmark, 2, 15, rfl, (hexValue?_eq_fifteen_iff digit).mpr hdigit⟩

/-- Decoding the pieces and gluing them with `slash` decodes the whole.  The
first piece is a prefix, so it does not begin an escape that the whole does
not begin. -/
theorem exists_splitOnEncodedSlash_eq (bytes : List UInt8) :
    ∃ piece pieces, splitOnEncodedSlash bytes = piece :: pieces ∧
      piece <+: bytes ∧ ∀ slash, decodeEscapes slash bytes =
        slash.intercalate ((piece :: pieces).map decodeBytes) := by
  rw [funext decodeBytes_eq]
  simp only [List.map_cons]
  induction escaped bytes with
  | nil => exact ⟨[], [], rfl, List.prefix_rfl, fun slash => by simp [decodeEscapes]⟩
  | @slash digit rest hdigit hrest ih =>
      obtain ⟨piece, pieces, hpieces, -, hglue⟩ := ih
      refine ⟨[], piece :: pieces, ?_, List.nil_prefix, fun slash => ?_⟩
      · rw [splitOnEncodedSlash_slash hdigit, hpieces]
      · rw [decodeEscapes_slash _ hdigit, hglue, List.map_cons,
          List.intercalate_cons_cons]
        rfl
  | @escape first second high low rest hhigh hlow hslash hrest ih =>
      obtain ⟨piece, pieces, hpieces, hfront, hglue⟩ := ih
      refine ⟨_, _, splitOnEncodedSlash_escape hhigh hlow hslash hpieces, ?_,
        fun slash => ?_⟩
      · simpa using hfront
      · rw [decodeEscapes_escape _ hhigh hlow hslash, hglue,
          decodeEscapes_escape _ hhigh hlow hslash, List.intercalate_cons_cons_left]
  | @byte a rest hbegins hrest ih =>
      obtain ⟨piece, pieces, hpieces, hfront, hglue⟩ := ih
      have hfirst : a :: piece <+: a :: rest := by simpa using hfront
      refine ⟨_, _, splitOnEncodedSlash_byte hbegins hpieces, hfirst,
        fun slash => ?_⟩
      rw [decodeEscapes_byte _ hbegins, hglue,
        decodeEscapes_byte _ fun hpiece => hbegins (hpiece.of_isPrefix hfirst),
        List.intercalate_cons_cons_left]

theorem intercalate_splitOnEncodedSlash (slash bytes : List UInt8) :
    slash.intercalate ((splitOnEncodedSlash bytes).map decodeBytes) =
      decodeEscapes slash bytes := by
  obtain ⟨piece, pieces, hpieces, -, hglue⟩ := exists_splitOnEncodedSlash_eq bytes
  rw [hpieces, hglue]

/-! ## Decoded texts -/

theorem textOfBytes?_eq_some_iff {bytes : List UInt8} {text : String} :
    textOfBytes? bytes = some text ↔ bytesOfText text = bytes := by
  unfold textOfBytes? bytesOfText String.fromUTF8?
  split
  next hvalid =>
    rw [Option.some_inj]
    constructor
    · rintro rfl
      rfl
    · rintro rfl
      rfl
  next hnot =>
    constructor
    · intro hsome
      contradiction
    · rintro rfl
      exact absurd text.isValidUTF8 hnot

/-- Around a text that stands among them, bytes are texts on their own. -/
theorem textOfBytes?_append {name : String} (hname : name ≠ "")
    (front back : List UInt8) :
    textOfBytes? (front ++ (bytesOfText name ++ back)) =
      (textOfBytes? front).bind fun before =>
        (textOfBytes? back).map fun after => before ++ name ++ after := by
  ext text
  have hchars : name.toList ≠ [] := by simpa using hname
  simp only [Option.bind_eq_some_iff, Option.map_eq_some_iff,
    textOfBytes?_eq_some_iff, Text.bytesOfText_eq, Text.utf8Bytes_eq_append_iff hchars]
  constructor
  · rintro ⟨before, after, htext, rfl, rfl⟩
    refine ⟨String.ofList before, by simp, String.ofList after, by simp, ?_⟩
    rw [← String.toList_inj]
    simp [htext]
  · rintro ⟨before, rfl, after, rfl, rfl⟩
    exact ⟨before.toList, after.toList, by simp, rfl, rfl⟩

theorem textOfBytes?_intercalate {name : String} (hname : name ≠ "")
    (pieces : List (List UInt8)) :
    textOfBytes? ((bytesOfText name).intercalate pieces) =
      (pieces.mapM textOfBytes?).map name.intercalate := by
  induction pieces with
  | nil => rfl
  | cons piece pieces ih =>
      cases pieces with
      | nil => cases hpiece : textOfBytes? piece <;> simp [hpiece]
      | cons other others =>
          rw [List.intercalate_cons_cons, List.append_assoc,
            textOfBytes?_append hname, ih, List.mapM_cons, List.mapM_cons]
          cases textOfBytes? piece with
          | none => rfl
          | some first =>
              cases hother : textOfBytes? other with
              | none => simp [hother]
              | some second =>
                  cases hothers : others.mapM textOfBytes? <;>
                    simp [hother, hothers, String.intercalate_cons_cons]

/-- Whatever stands for an encoded slash, the value is decoded piece by piece. -/
theorem textOfBytes?_decodeEscapes {slash : String} (hslash : slash ≠ "")
    (raw : String) :
    textOfBytes? (decodeEscapes (bytesOfText slash) (bytesOfText raw)) =
      ((splitOnEncodedSlash (bytesOfText raw)).mapM fun piece =>
        textOfBytes? (decodeBytes piece)).map slash.intercalate := by
  rw [← intercalate_splitOnEncodedSlash, textOfBytes?_intercalate hslash,
    List.mapM_map]
  rfl

theorem bytesOfText_encodedSlash : bytesOfText "%2F" = encodedSlash := by
  decide +kernel

theorem bytesOfText_slash : bytesOfText "/" = [slashByte] := by
  decide +kernel

theorem decodeKeepingSlashes_eq (raw : String) :
    decodeKeepingSlashes raw =
      textOfBytes? (decodeEscapes encodedSlash (bytesOfText raw)) := by
  rw [← bytesOfText_encodedSlash, textOfBytes?_decodeEscapes (by decide),
    decodeKeepingSlashes, bind_pure_comp]
  rfl

theorem decode_eq (raw : String) :
    decode raw = textOfBytes? (decodeEscapes [slashByte] (bytesOfText raw)) := by
  rw [decode, decodeBytes_eq]

/-- Keeping slashes encoded makes no value valid or invalid. -/
theorem decodeKeepingSlashes_eq_none_iff (raw : String) :
    decodeKeepingSlashes raw = none ↔ decode raw = none := by
  rw [decodeKeepingSlashes_eq, decode_eq, ← bytesOfText_encodedSlash,
    ← bytesOfText_slash, textOfBytes?_decodeEscapes (by decide),
    textOfBytes?_decodeEscapes (by decide), Option.map_eq_none_iff,
    Option.map_eq_none_iff]

/-! ## Segments -/

theorem length_bytesOfText (text : String) :
    (bytesOfText text).length = text.utf8ByteSize := by
  rw [bytesOfText, String.toUTF8_eq_toByteArray, Array.length_toList]
  exact String.size_toByteArray

theorem bytesOfText_append (front back : String) :
    bytesOfText (front ++ back) = bytesOfText front ++ bytesOfText back := by
  rw [Text.bytesOfText_eq, String.toList_append, Text.utf8Bytes_append,
    ← Text.bytesOfText_eq, ← Text.bytesOfText_eq]

theorem bytesOfText_intercalate (name : String) (texts : List String) :
    bytesOfText (name.intercalate texts) =
      (bytesOfText name).intercalate (texts.map bytesOfText) := by
  induction texts with
  | nil => rfl
  | cons text texts ih =>
      cases texts with
      | nil => simp
      | cons other others =>
          rw [String.intercalate_cons_cons, bytesOfText_append, bytesOfText_append,
            ih]
          simp [List.intercalate_cons_cons]

theorem slashByte_mem_bytesOfText_iff {text : String} :
    slashByte ∈ bytesOfText text ↔ '/' ∈ text.toList := by
  have hslash : String.utf8EncodeChar '/' = [slashByte] := by decide +kernel
  have hfirst : slashByte.IsUTF8FirstByte := by decide
  have hchar (c : Char) : slashByte ∈ String.utf8EncodeChar c ↔ c = '/' := by
    constructor
    · intro hmem
      obtain ⟨byte, bytes, hbytes, -, hothers⟩ :=
        Text.exists_cons_of_utf8EncodeChar c
      rw [hbytes, List.mem_cons] at hmem
      rcases hmem with rfl | hlater
      · have heq : String.utf8EncodeChar c ++ [] =
            String.utf8EncodeChar '/' ++ bytes := by
          rw [List.append_nil, hbytes, hslash]
          rfl
        exact (Text.utf8EncodeChar_append_inj heq).1
      · exact absurd hfirst (hothers _ hlater)
    · rintro rfl
      simp [hslash]
  simp [Text.bytesOfText_eq, Text.utf8Bytes, List.mem_flatMap, hchar]

theorem intercalate_segmentsAfterSlash (text : String) :
    "/".intercalate (segmentsAfterSlash text.toList) = text := by
  rw [← String.toList_inj, String.toList_intercalate, segmentsAfterSlash,
    Text.splitOn_eq_list_splitOn, List.map_map]
  simp [Function.comp_def]

/-- The segments of a value in bytes, none of which holds a slash. -/
theorem bytesOfText_segments (text : String) :
    bytesOfText text =
        [slashByte].intercalate ((segmentsAfterSlash text.toList).map bytesOfText) ∧
      (∀ piece ∈ (segmentsAfterSlash text.toList).map bytesOfText,
        slashByte ∉ piece) ∧
      (segmentsAfterSlash text.toList).map bytesOfText ≠ [] := by
  refine ⟨?_, ?_, by simpa using segmentsAfterSlash_ne_nil text.toList⟩
  · rw [← bytesOfText_slash, ← bytesOfText_intercalate,
      intercalate_segmentsAfterSlash]
  · intro piece hmem
    obtain ⟨segment, hsegment, rfl⟩ := List.mem_map.mp hmem
    rw [slashByte_mem_bytesOfText_iff]
    exact slash_not_mem_segmentsAfterSlash text.toList segment hsegment

/-- The segments of the decoded value are the decoded segments of the value. -/
theorem segments_of_decodeKeepingSlashes {raw text : String}
    (hdecode : decodeKeepingSlashes raw = some text) :
    (segmentsAfterSlash text.toList).map bytesOfText =
      (segmentsAfterSlash raw.toList).map fun segment =>
        decodeEscapes encodedSlash (bytesOfText segment) := by
  rw [decodeKeepingSlashes_eq, textOfBytes?_eq_some_iff] at hdecode
  obtain ⟨htext, htextFree, htextNe⟩ := bytesOfText_segments text
  obtain ⟨hraw, hrawFree, hrawNe⟩ := bytesOfText_segments raw
  calc (segmentsAfterSlash text.toList).map bytesOfText
      = (bytesOfText text).splitOn slashByte := by
        rw [htext, List.splitOn_intercalate slashByte htextFree htextNe]
    _ = (decodeEscapes encodedSlash (bytesOfText raw)).splitOn slashByte := by
        rw [hdecode]
    _ = ((segmentsAfterSlash raw.toList).map bytesOfText).map
          (decodeEscapes encodedSlash) := by
        rw [hraw, splitOn_decodeEscapes (by decide) hrawFree hrawNe]
    _ = _ := by rw [List.map_map, Function.comp_def]

/-- Decoding neither adds a slash nor takes one away. -/
theorem count_slash_of_decodeKeepingSlashes {raw text : String}
    (hdecode : decodeKeepingSlashes raw = some text) :
    text.toList.count '/' = raw.toList.count '/' := by
  have hlength := congrArg List.length (segments_of_decodeKeepingSlashes hdecode)
  simp only [List.length_map, length_segmentsAfterSlash] at hlength
  exact Nat.succ.inj hlength

end HttpRoutes.Percent
