import HttpRoutes.Proofs.Template.InPlace

/-!
# Where a text is rejected

Reading in place is reading, so no cut fails, and the offset of a fault lies
between characters.  And a reader in place sees nothing past its position: every
text that begins like a rejected one, up to and with the byte at the fault, is
rejected there too, for the same reason.
-/

namespace HttpRoutes

open Percent (bytesOfText)

theorem scan_eq_error_iff {text : String} {halt : Halt} :
    scan text = .error halt ↔ Scanner.readTemplate.run text 0 = .error halt := by
  unfold scan
  cases Scanner.readTemplate.run text 0 <;> simp [Except.map]

namespace Template

theorem exists_remains_of_parse {text spelled : String} {offset : Nat}
    {reason : Reason}
    (hparse : parse text = .error (.malformed spelled offset reason)) :
    spelled = text ∧ ∃ remaining, Remains text offset remaining := by
  obtain ⟨read, hsame, hread⟩ :=
    Scanner.sameReading_readTemplate (remains_zero text)
  unfold parse at hparse
  rw [hread] at hparse
  cases read with
  | ok read => simp [Except.map] at hparse
  | error fault =>
      obtain ⟨halt, -, hfault⟩ := hsame
      cases hfault with
      | @malformed reason remaining offset hremains =>
          simp only [Except.map, hremains.offset_eq, Except.error.injEq,
            ParseError.malformed.injEq] at hparse
          obtain ⟨rfl, rfl, -⟩ := hparse
          exact ⟨rfl, remaining, hremains⟩
      | duplicate => simp [Except.map] at hparse

theorem scan_eq_malformed_iff {text : String} {offset : Nat} {reason : Reason} :
    scan text = .error (.malformed reason offset) ↔
      parse text = .error (.malformed text offset reason) := by
  rw [scan_eq]
  cases hparse : parse text with
  | ok template => simp [Except.mapError]
  | error error =>
      cases error with
      | malformed spelled other why =>
          obtain ⟨rfl, -⟩ := exists_remains_of_parse hparse
          simp [Except.mapError, Halt.ofError, and_comm]
      | duplicateVariable spelled path => simp [Except.mapError, Halt.ofError]

/-- Every text that begins like a malformed one, up to and with the byte at the
fault, has the same fault. -/
theorem parse_eq_of_take {text other : String} {offset : Nat} {reason : Reason}
    (hparse : parse text = .error (.malformed text offset reason))
    (hlt : offset < text.utf8ByteSize)
    (htake : (bytesOfText other).take (offset + 1) =
      (bytesOfText text).take (offset + 1)) :
    parse other = .error (.malformed other offset reason) := by
  have hlength : ((bytesOfText text).take (offset + 1)).length = offset + 1 := by
    rw [List.length_take, Percent.length_bytesOfText]
    omega
  have htext := List.take_prefix (offset + 1) (bytesOfText text)
  have hother := htake ▸ List.take_prefix (offset + 1) (bytesOfText other)
  have hrun : Scanner.readTemplate.run text 0 = .error (.malformed reason offset) :=
    scan_eq_error_iff.mp (scan_eq_malformed_iff.mpr hparse)
  have halike := Scanner.readTemplate.alike htext hother 0
  rw [hrun, hlength] at halike
  have hsame := halike.resolve_right (Nat.not_succ_le_self offset)
  exact scan_eq_malformed_iff.mp (scan_eq_error_iff.mpr hsame)

/-- Reading a template cuts the text only between characters, and the offset of
a fault is such a place too.  If the text goes on there, the byte at the offset
is the last one that was looked at: whatever follows, the text is malformed at
this place and for this reason. -/
theorem parse_local (text : String) :
    scan text = (parse text).mapError Halt.ofError ∧
    (∀ start stop, scan text ≠ .error (.badSlice start stop)) ∧
    ∀ spelled offset reason,
      parse text = .error (.malformed spelled offset reason) →
        spelled = text ∧ offset ≤ text.utf8ByteSize ∧
        String.Pos.Raw.IsValid text ⟨offset⟩ ∧
        (offset < text.utf8ByteSize → ∀ other : String,
          (bytesOfText other).take (offset + 1) =
            (bytesOfText text).take (offset + 1) →
              parse other = .error (.malformed other offset reason)) := by
  refine ⟨scan_eq text, ?_, ?_⟩
  · intro start stop hscan
    rw [scan_eq] at hscan
    cases hparse : parse text with
    | ok template => simp [hparse, Except.mapError] at hscan
    | error error =>
        rw [hparse] at hscan
        cases error <;> simp [Except.mapError, Halt.ofError] at hscan
  · intro spelled offset reason hparse
    obtain ⟨rfl, remaining, hremains⟩ := exists_remains_of_parse hparse
    exact ⟨rfl, hremains.isValid.le_utf8ByteSize, hremains.isValid,
      fun hlt _ => parse_eq_of_take hparse hlt⟩

-- The two texts part within the character at which both are rejected.
theorem parse_local_within_character :
    parse "/{é}" = .error (.malformed "/{é}" 2 .nameExpected) ∧
      parse "/{è=*}" = .error (.malformed "/{è=*}" 2 .nameExpected) := by
  have hparse : parse "/{é}" = .error (.malformed "/{é}" 2 .nameExpected) := by
    decide +kernel
  obtain ⟨-, -, hlocal⟩ := parse_local "/{é}"
  obtain ⟨-, -, -, hother⟩ := hlocal _ _ _ hparse
  exact ⟨hparse, hother (by decide +kernel) "/{è=*}" (by decide +kernel)⟩

end Template
end HttpRoutes
