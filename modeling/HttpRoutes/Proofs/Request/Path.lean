import HttpRoutes.Request.Path
import Mathlib.Data.List.DropRight

/-!
# How a request path is cut

A request path is cut twice: into segments, and at the last colon of its last
segment.  Both cuts are described here without the functions that make them.
The segments are the library's split of the counted part of the path, and a
verb is taken off when the last segment ends in a colon and that verb.
-/

namespace HttpRoutes

namespace Text

theorem splitOn_eq_list_splitOn (separator : Char) (cs : List Char) :
    splitOn separator cs = cs.splitOn separator := by
  induction cs with
  | nil => rfl
  | cons c cs ih =>
      rw [splitOn, List.splitOn_cons_eq_if_modifyHead, ← ih]
      by_cases hc : c = separator
      · simp [hc]
      · rw [if_neg hc]
        cases hpieces : splitOn separator cs with
        | nil => exact absurd hpieces (splitOn_ne_nil separator cs)
        | cons piece pieces => simp [hc]

theorem splitLast?_eq_none_iff {separator : Char} {cs : List Char} :
    splitLast? separator cs = none ↔ separator ∉ cs := by
  induction cs with
  | nil => simp [splitLast?]
  | cons c cs ih =>
      rw [splitLast?]
      cases hlast : splitLast? separator cs with
      | some split =>
          have hmem : separator ∈ cs := by
            by_contra hnot
            rw [ih.mpr hnot] at hlast
            contradiction
          simp [hmem]
      | none =>
          have hnot : separator ∉ cs := ih.mp hlast
          by_cases hc : c = separator
          · simp [hc]
          · simp [hc, hnot, Ne.symm hc]

theorem splitLast?_eq_some_iff {separator : Char}
    {cs before after : List Char} :
    splitLast? separator cs = some (before, after) ↔
      cs = before ++ separator :: after ∧ separator ∉ after := by
  induction cs generalizing before with
  | nil => simp [splitLast?]
  | cons c cs ih =>
      rw [splitLast?]
      cases hlast : splitLast? separator cs with
      | some split =>
          obtain ⟨front, tail⟩ := split
          simp only [Option.some.injEq, Prod.mk.injEq]
          constructor
          · rintro ⟨rfl, rfl⟩
            obtain ⟨rfl, hnot⟩ := ih.mp hlast
            exact ⟨rfl, hnot⟩
          · rintro ⟨heq, hnot⟩
            cases before with
            | nil =>
                simp only [List.nil_append, List.cons.injEq] at heq
                rw [heq.2, splitLast?_eq_none_iff.mpr hnot] at hlast
                contradiction
            | cons first before =>
                simp only [List.cons_append, List.cons.injEq] at heq
                have hsplit := ih.mpr ⟨heq.2, hnot⟩
                rw [hlast, Option.some.injEq, Prod.mk.injEq] at hsplit
                exact ⟨by rw [heq.1, hsplit.1], hsplit.2⟩
      | none =>
          have hnone : separator ∉ cs := splitLast?_eq_none_iff.mp hlast
          simp only
          constructor
          · intro hsplit
            split at hsplit
            next hc =>
              simp only [Option.some.injEq, Prod.mk.injEq] at hsplit
              obtain ⟨rfl, rfl⟩ := hsplit
              exact ⟨by rw [hc, List.nil_append], hnone⟩
            next => contradiction
          · rintro ⟨heq, hnot⟩
            cases before with
            | nil =>
                simp only [List.nil_append, List.cons.injEq] at heq
                rw [if_pos heq.1, heq.2]
            | cons first before =>
                simp only [List.cons_append, List.cons.injEq] at heq
                exact absurd (by simp [heq.2]) hnone

end Text

/-- What remains of the segments when `verb`, if there is one, is taken off the
end of the last segment. -/
def TakesVerb (verb : Option String) (segments stripped : List String) : Prop :=
  match verb with
  | none => stripped = segments
  | some verb =>
    ∃ front head, segments = front ++ [head ++ ":" ++ verb] ∧
      stripped = front ++ [head]

theorem toList_eq_append_colon_iff {text : String} {head verb : List Char} :
    text.toList = head ++ ':' :: verb ↔
      text = String.ofList head ++ ":" ++ String.ofList verb := by
  rw [← String.toList_inj]
  simp

theorem splitVerb_eq_some_iff {verbs segments stripped : List String}
    {verb : String} :
    splitVerb verbs segments = some (stripped, verb) ↔
      verb ∈ verbs ∧ ':' ∉ verb.toList ∧
        TakesVerb (some verb) segments stripped := by
  unfold splitVerb
  constructor
  · intro hsplit
    obtain ⟨last, hlast, hsplit⟩ := Option.bind_eq_some_iff.mp hsplit
    obtain ⟨⟨head, tail⟩, hcolon, hsplit⟩ := Option.bind_eq_some_iff.mp hsplit
    obtain ⟨htext, hnot⟩ := Text.splitLast?_eq_some_iff.mp hcolon
    obtain ⟨front, rfl⟩ := List.getLast?_eq_some_iff.mp hlast
    dsimp only at hsplit
    split at hsplit
    next hmem =>
      simp only [Option.some.injEq, Prod.mk.injEq] at hsplit
      obtain ⟨rfl, rfl⟩ := hsplit
      refine ⟨hmem, by simpa using hnot, front, String.ofList head, ?_, ?_⟩
      · rw [toList_eq_append_colon_iff.mp htext]
      · rw [List.dropLast_concat]
    next => contradiction
  · rintro ⟨hmem, hnot, front, head, rfl, rfl⟩
    have hcolon : Text.splitLast? ':' (head.toList ++ ':' :: verb.toList) =
        some (head.toList, verb.toList) :=
      Text.splitLast?_eq_some_iff.mpr ⟨rfl, hnot⟩
    simp [hcolon, hmem]

theorem TakesVerb.unique {verb : Option String}
    {segments stripped stripped' : List String}
    (htakes : TakesVerb verb segments stripped)
    (htakes' : TakesVerb verb segments stripped') : stripped = stripped' := by
  cases verb with
  | none => exact htakes.trans htakes'.symm
  | some verb =>
      obtain ⟨front, head, rfl, rfl⟩ := htakes
      obtain ⟨front', head', heq, rfl⟩ := htakes'
      obtain ⟨hfront, hlast⟩ := List.append_inj' heq rfl
      have hhead : head = head' := by
        simpa [String.append_assoc] using hlast
      rw [hfront, hhead]

end HttpRoutes
