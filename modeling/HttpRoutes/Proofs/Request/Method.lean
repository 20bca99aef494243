import HttpRoutes.Proofs.Text.Bytes
import HttpRoutes.Request.Method
import Mathlib.Order.Basic
import Mathlib.Data.List.Lex

/-!
# The order of method names

Texts are compared character by character.  A method consists of characters of
one byte each, so its name is ordered in the same way byte by byte.
-/

namespace HttpRoutes

theorem isAlphanum_lt {c : Char} (hc : c.isAlphanum = true) : c.toNat < 128 := by
  unfold Char.isAlphanum Char.isAlpha Char.isUpper Char.isLower Char.isDigit at hc
  simp only [Bool.or_eq_true, Bool.and_eq_true, decide_eq_true_eq,
    UInt32.le_iff_toNat_le, ge_iff_le] at hc
  have hvalue : c.toNat = c.val.toNat := rfl
  have hupper : 'Z'.val.toNat = 90 := rfl
  have hlower : 'z'.val.toNat = 122 := rfl
  have hdigit : '9'.val.toNat = 57 := rfl
  omega

theorem utf8EncodeChar_of_lt {c : Char} (hc : c.toNat < 128) :
    String.utf8EncodeChar c = [UInt8.ofNat c.toNat] := by
  rw [String.utf8EncodeChar.eq_def]
  exact if_pos (Nat.le_of_lt_succ hc)

end HttpRoutes
