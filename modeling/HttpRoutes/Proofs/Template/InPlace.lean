import HttpRoutes.Proofs.Template.Scanner

/-!
# Reading in place is reading

Reading at a byte position gives what reading characters gives.  The readers ask
of a byte only what it has in common with the whole character, so a position
that starts between characters is between them again wherever something is cut
out or a fault is found.

Each reader of bytes is compared with the reader of characters of the same name,
along the recursion of the latter: the one ends at the position where what the
other leaves begins.
-/

namespace HttpRoutes

variable {α β σ : Type}

/-! ## Characters of a template -/

theorem bytewise_isTextChar : Bytewise Template.isTextChar := by
  have hdelimiter : Bytewise Template.isDelimiter := by
    apply bytewise_of_lt
    intro c hc
    simp only [Template.isDelimiter, Bool.or_eq_true, decide_eq_true_iff] at hc
    rcases hc with (((rfl | rfl) | rfl) | rfl) | rfl <;> decide
  intro c byte hmem
  rw [Template.isTextChar, Template.isTextChar, hdelimiter c byte hmem]

theorem isNameChar_lt {c : Char} (hc : Template.isNameChar c = true) :
    c.toNat < 128 := by
  rw [Template.isNameChar, Bool.or_eq_true, decide_eq_true_iff] at hc
  rcases hc with halphanum | rfl
  · exact isAlphanum_lt halphanum
  · decide

theorem isNameStart_lt {c : Char} (hc : Template.isNameStart c = true) :
    c.toNat < 128 := by
  rw [Template.isNameStart, Bool.or_eq_true, decide_eq_true_iff] at hc
  rcases hc with halpha | rfl
  · exact isAlphanum_lt (by rw [Char.isAlphanum, halpha, Bool.true_or])
  · decide

theorem bytewise_isNameChar : Bytewise Template.isNameChar :=
  bytewise_of_lt fun _ => isNameChar_lt

theorem bytewise_isNameStart : Bytewise Template.isNameStart :=
  bytewise_of_lt fun _ => isNameStart_lt

/-! ## Steps -/

namespace Scanner

variable {text : String} {pos : Nat} {cs : List Char}

theorem run_bind_of_eq {scan : Scanner α} {next : α → Scanner β} {x : α}
    {mid : Nat} (hrun : scan.run text pos = .ok (x, mid)) :
    (scan >>= next).run text pos = (next x).run text mid := by
  rw [run_bind, hrun]

theorem run_bind_of_error {scan : Scanner α} {next : α → Scanner β} {halt : Halt}
    (hrun : scan.run text pos = .error halt) :
    (scan >>= next).run text pos = .error halt := by
  rw [run_bind, hrun]

theorem run_test {p : Char → Bool} (hp : Bytewise p)
    (hremains : Remains text pos cs) :
    (test p).run text pos = .ok (cs.head?.any p, pos) :=
  congrArg (fun answer => Except.ok (answer, pos)) (hremains.any_next hp)

theorem run_test_cons {p : Char → Bool} (hp : Bytewise p) {c : Char}
    (hremains : Remains text pos (c :: cs)) :
    (test p).run text pos = .ok (p c, pos) :=
  run_test hp hremains

section Questions

variable {yes no : Scanner α} {c : Char}

theorem run_if_test_cons (hc : c.toNat < 128)
    (hremains : Remains text pos (c :: cs)) :
    (test (fun d => decide (d = c)) >>= fun answer =>
      if answer then yes else no).run text pos = yes.run text pos := by
  rw [run_bind_of_eq (run_test_cons (bytewise_eq hc) hremains),
    if_pos (decide_eq_true rfl)]

theorem run_if_test_of_ne (hc : c.toNat < 128) (hremains : Remains text pos cs)
    (hne : ∀ tail, cs ≠ c :: tail) :
    (test (fun d => decide (d = c)) >>= fun answer =>
      if answer then yes else no).run text pos = no.run text pos := by
  have hfalse : (cs.head?.any fun d => decide (d = c)) = false := by
    cases cs with
    | nil => rfl
    | cons d cs =>
        have hd : d ≠ c := fun heq => hne cs (heq ▸ rfl)
        simp [hd]
  rw [run_bind_of_eq (run_test (bytewise_eq hc) hremains), hfalse,
    if_neg Bool.false_ne_true]

theorem run_if_atEnd_nil (hremains : Remains text pos []) :
    (atEnd >>= fun answer => if answer then yes else no).run text pos =
      yes.run text pos := by
  have hnone := hremains.next_eq_none_iff.mpr rfl
  have hrun : atEnd.run text pos = .ok (true, pos) :=
    congrArg (fun next => Except.ok (Option.isNone next, pos)) hnone
  rw [run_bind_of_eq hrun, if_pos rfl]

theorem run_if_atEnd_of_ne (hremains : Remains text pos cs) (hne : cs ≠ []) :
    (atEnd >>= fun answer => if answer then yes else no).run text pos =
      no.run text pos := by
  have hsome := Option.isNone_eq_false_iff.mpr
    (Option.isSome_iff_ne_none.mpr (mt hremains.next_eq_none_iff.mp hne))
  have hrun : atEnd.run text pos = .ok (false, pos) :=
    congrArg (fun answer => Except.ok (answer, pos)) hsome
  rw [run_bind_of_eq hrun, if_neg Bool.false_ne_true]

theorem run_if_consume_cons (hc : c.toNat < 128)
    (hremains : Remains text pos (c :: cs)) :
    (consume c >>= fun answer => if answer then yes else no).run text pos =
      yes.run text (pos + 1) := by
  have hrun : (consume c).run text pos = .ok (true, pos + 1) := by
    rw [consume, run_if_test_cons hc hremains]
    rfl
  rw [run_bind_of_eq hrun, if_pos rfl]

theorem run_if_consume_of_ne (hc : c.toNat < 128) (hremains : Remains text pos cs)
    (hne : ∀ tail, cs ≠ c :: tail) :
    (consume c >>= fun answer => if answer then yes else no).run text pos =
      no.run text pos := by
  have hrun : (consume c).run text pos = .ok (false, pos) := by
    rw [consume, run_if_test_of_ne hc hremains hne]
    rfl
  rw [run_bind_of_eq hrun, if_neg Bool.false_ne_true]

end Questions

theorem run_skip {p : Char → Bool} (hp : Bytewise p)
    (hremains : Remains text pos cs) :
    (skip p).run text pos =
      .ok ((), pos + Template.byteLength (cs.takeWhile p)) := by
  obtain ⟨before, hbytes, rfl⟩ := hremains.bytes_eq
  rw [← Text.length_utf8Bytes, ← takeWhile_utf8Bytes hp, skip]
  simp only [hbytes, List.drop_left]

theorem run_since {front tail : List Char}
    (hremains : Remains text pos (front ++ tail)) :
    (since pos).run text (pos + Template.byteLength front) =
      .ok (String.ofList front, pos + Template.byteLength front) := by
  simp only [since, hremains.slice?_eq]

end Scanner

/-! ## The same reading -/

/-- Why reading characters stopped, told by a position. -/
inductive SameFault (text : String) : Fault → Halt → Prop where
  | malformed {reason : Reason} {remaining : List Char} {offset : Nat}
      (hremains : Remains text offset remaining) :
      SameFault text (.malformed reason remaining) (.malformed reason offset)
  | duplicate {path : FieldPath} :
      SameFault text (.duplicate path) (.duplicate path)

/-- What reading characters gave, told by a position. -/
def SameReading (text : String) (outcome : Except Halt (α × Nat)) :
    Except Fault (α × List Char) → Prop
  | .ok (x, tail) => ∃ next, outcome = .ok (x, next) ∧ Remains text next tail
  | .error fault => ∃ halt, outcome = .error halt ∧ SameFault text fault halt

theorem SameReading.map {text : String} {outcome : Except Halt (α × Nat)}
    {read : Except Fault (α × List Char)} (f : α → β)
    (hsame : SameReading text outcome read) :
    SameReading text (outcome.map (Prod.map f id)) (read.map (Prod.map f id)) := by
  cases read with
  | error fault =>
      obtain ⟨halt, rfl, hfault⟩ := hsame
      exact ⟨halt, rfl, hfault⟩
  | ok read =>
      obtain ⟨next, rfl, hnext⟩ := hsame
      exact ⟨next, rfl, hnext⟩

namespace Scanner

variable {text : String} {pos : Nat} {cs : List Char}

theorem sameReading_pure (x : α) (hremains : Remains text pos cs) :
    SameReading text ((pure x : Scanner α).run text pos) (.ok (x, cs)) :=
  ⟨pos, rfl, hremains⟩

theorem sameReading_fail {reason : Reason} (hremains : Remains text pos cs) :
    SameReading text ((fail reason : Scanner α).run text pos)
      (.error (.malformed reason cs)) :=
  ⟨_, rfl, .malformed hremains⟩

theorem sameReading_bind {scan : Scanner α} {next : α → Scanner β} {x : α}
    {tail : List Char} {read : Except Fault (β × List Char)}
    (hscan : SameReading text (scan.run text pos) (.ok (x, tail)))
    (hnext : ∀ mid, Remains text mid tail →
      SameReading text ((next x).run text mid) read) :
    SameReading text ((scan >>= next).run text pos) read := by
  obtain ⟨mid, hrun, hmid⟩ := hscan
  rw [run_bind_of_eq hrun]
  exact hnext mid hmid

theorem sameReading_bind_error {scan : Scanner α} {next : α → Scanner β}
    {fault : Fault} (hscan : SameReading text (scan.run text pos) (.error fault)) :
    SameReading text ((scan >>= next).run text pos) (.error fault) := by
  obtain ⟨halt, hrun, hfault⟩ := hscan
  exact ⟨halt, run_bind_of_error hrun, hfault⟩

/-! ## Repetition -/

section Separated

variable {separator : Char} {item : σ → Scanner α} {step : σ → α → σ}
  {close : Scanner Unit} {state : σ} {x : α} {tail : List Char}

theorem sameReading_separated_error {fault : Fault}
    (hitem : SameReading text ((item state).run text pos) (.error fault)) :
    SameReading text ((separated separator item step close state).run text pos)
      (.error fault) := by
  obtain ⟨halt, hrun, hfault⟩ := hitem
  exact ⟨halt, runSeparated_error hrun, hfault⟩

theorem sameReading_separated_more (hseparator : separator.toNat < 128)
    (hitem : SameReading text ((item state).run text pos)
      (.ok (x, separator :: tail)))
    {later read : Except Fault (List α × List Char)}
    (hlater : ∀ mid, Remains text mid tail → SameReading text
      ((separated separator item step close (step state x)).run text mid) later)
    (hread : later.map (Prod.map (x :: ·) id) = read) :
    SameReading text ((separated separator item step close state).run text pos)
      read := by
  obtain ⟨mid, hrun, hmid⟩ := hitem
  have hmore := (hmid.next_eq_iff hseparator).mpr ⟨tail, rfl⟩
  have hseparated : (separated separator item step close state).run text pos =
      ((separated separator item step close (step state x)).run text (mid + 1)).map
        (Prod.map (x :: ·) id) :=
    runSeparated_more hrun hmore
  rw [hseparated, ← hread]
  exact (hlater (mid + 1) (hmid.cons hseparator)).map _

theorem sameReading_separated_last (hseparator : separator.toNat < 128)
    (hitem : SameReading text ((item state).run text pos) (.ok (x, tail)))
    (hlast : ∀ later, tail ≠ separator :: later)
    {closed : Except Fault (Unit × List Char)}
    (hclose : ∀ mid, Remains text mid tail →
      SameReading text (close.run text mid) closed) :
    SameReading text ((separated separator item step close state).run text pos)
      (closed.map (Prod.map (fun _ => [x]) id)) := by
  obtain ⟨mid, hrun, hmid⟩ := hitem
  have hnone := mt (hmid.next_eq_iff hseparator).mp fun ⟨later, heq⟩ => hlast later heq
  have hseparated : (separated separator item step close state).run text pos =
      (close.run text mid).map (Prod.map (fun _ => [x]) id) :=
    runSeparated_last hrun hnone
  rw [hseparated]
  exact (hclose mid hmid).map _

end Separated

/-! ## Elements and patterns -/

theorem run_readLiteral_nil (hremains : Remains text pos cs)
    (htake : cs.takeWhile Template.isTextChar = []) :
    readLiteral.run text pos = .error (.malformed .emptySegment pos) := by
  have hskip : (skip Template.isTextChar).run text pos = .ok ((), pos) := by
    rw [run_skip bytewise_isTextChar hremains, htake]
    rfl
  rw [readLiteral, run_bind_of_eq rfl, run_bind_of_eq hskip, run_bind_of_eq rfl,
    if_pos rfl]
  rfl

theorem run_readLiteral (hremains : Remains text pos cs)
    (htake : cs.takeWhile Template.isTextChar ≠ []) :
    readLiteral.run text pos =
      .ok (String.ofList (cs.takeWhile Template.isTextChar),
        pos + Template.byteLength (cs.takeWhile Template.isTextChar)) := by
  have hsplit : Remains text pos (cs.takeWhile Template.isTextChar ++
      cs.dropWhile Template.isTextChar) := by
    rwa [List.takeWhile_append_dropWhile]
  have hne := byteLength_ne_zero htake
  rw [readLiteral, run_bind_of_eq rfl,
    run_bind_of_eq (run_skip bytewise_isTextChar hremains), run_bind_of_eq rfl,
    if_neg (by omega), run_since hsplit]

theorem sameReading_readElement (restSeen : Bool) (hremains : Remains text pos cs) :
    SameReading text ((readElement restSeen).run text pos)
      (Template.readElement restSeen cs) := by
  have hstar : '*'.toNat < 128 := by decide
  have hbrace : '{'.toNat < 128 := by decide
  unfold readElement
  fun_cases Template.readElement restSeen cs with
  | case1 cs hseen =>
      rw [if_pos hseen]
      exact sameReading_fail hremains
  | case2 hseen tail =>
      have hnext := hremains.cons hstar
      rw [if_neg hseen, run_if_consume_cons hstar hremains,
        run_if_consume_cons hstar hnext]
      exact ⟨_, rfl, hnext.cons hstar⟩
  | case3 hseen tail htail =>
      have hnext := hremains.cons hstar
      rw [if_neg hseen, run_if_consume_cons hstar hremains,
        run_if_consume_of_ne hstar hnext htail]
      exact ⟨_, rfl, hnext⟩
  | case4 hseen tail =>
      rw [if_neg hseen, run_if_consume_of_ne hstar hremains (by simp),
        run_bind_of_eq (run_test_cons (bytewise_eq hbrace) hremains)]
      exact sameReading_fail hremains
  | case5 cs hseen htake htwo hone hvariable =>
      rw [if_neg hseen, run_if_consume_of_ne hstar hremains hone,
        run_if_test_of_ne hbrace hremains hvariable,
        run_bind_of_error (run_readLiteral_nil hremains htake), htake]
      exact ⟨_, rfl, .malformed hremains⟩
  | case6 cs hseen htwo hone hvariable htake =>
      rw [if_neg hseen, run_if_consume_of_ne hstar hremains hone,
        run_if_test_of_ne hbrace hremains hvariable,
        run_bind_of_eq (run_readLiteral hremains htake)]
      split
      next hnil => exact absurd hnil htake
      next => exact ⟨_, rfl, hremains.dropWhile Template.isTextChar⟩

theorem sameReading_closePattern (hremains : Remains text pos ('}' :: cs)) :
    SameReading text (closePattern.run text pos) (.ok ((), cs)) := by
  have hbrace : '}'.toNat < 128 := by decide
  rw [closePattern, run_if_consume_cons hbrace hremains]
  exact sameReading_pure () (hremains.cons hbrace)

theorem sameReading_closePattern_nil (hremains : Remains text pos []) :
    SameReading text (closePattern.run text pos)
      (.error (.malformed .unterminatedVariable [])) := by
  rw [closePattern, run_if_consume_of_ne (by decide) hremains (by simp),
    run_if_atEnd_nil hremains]
  exact sameReading_fail hremains

theorem sameReading_closePattern_of_ne (hremains : Remains text pos cs)
    (hne : cs ≠ []) (hbrace : ∀ tail, cs ≠ '}' :: tail) :
    SameReading text (closePattern.run text pos)
      (.error (.malformed .reservedCharacter cs)) := by
  rw [closePattern, run_if_consume_of_ne (by decide) hremains hbrace,
    run_if_atEnd_of_ne hremains hne]
  exact sameReading_fail hremains

theorem sameReading_readPattern (restSeen : Bool) (hremains : Remains text pos cs) :
    SameReading text ((readPattern restSeen).run text pos)
      (Template.readPattern restSeen cs) := by
  have hslash : '/'.toNat < 128 := by decide
  fun_induction Template.readPattern restSeen cs generalizing pos with
  | case1 restSeen cs fault helement =>
      have hitem := sameReading_readElement restSeen hremains
      exact sameReading_separated_error (helement ▸ hitem)
  | case2 restSeen cs element helement =>
      have hitem := sameReading_readElement restSeen hremains
      exact sameReading_separated_last hslash (helement ▸ hitem) (by simp)
        fun _ => sameReading_closePattern_nil
  | case3 restSeen cs element tail helement =>
      have hitem := sameReading_readElement restSeen hremains
      exact sameReading_separated_last hslash (helement ▸ hitem) (by simp)
        fun _ => sameReading_closePattern
  | case4 restSeen cs element tail helement fault hlater ih =>
      have hitem := sameReading_readElement restSeen hremains
      rw [hlater] at ih
      exact sameReading_separated_more hslash (helement ▸ hitem) (fun _ => ih) rfl
  | case5 restSeen cs element tail helement elements left hlater ih =>
      have hitem := sameReading_readElement restSeen hremains
      rw [hlater] at ih
      exact sameReading_separated_more hslash (helement ▸ hitem) (fun _ => ih) rfl
  | case6 restSeen cs element tail hne hbrace hlast helement =>
      have hitem := sameReading_readElement restSeen hremains
      exact sameReading_separated_last hslash (helement ▸ hitem) hlast
        fun _ hmid => sameReading_closePattern_of_ne hmid hne hbrace

/-! ## Field paths and variables -/

theorem sameReading_readName (hremains : Remains text pos cs) :
    SameReading text (readName.run text pos) (Template.readName cs) := by
  rw [readName, run_bind_of_eq rfl]
  cases cs with
  | nil =>
      rw [run_bind_of_eq (run_test bytewise_isNameStart hremains)]
      exact sameReading_fail hremains
  | cons c cs =>
      rw [run_bind_of_eq (run_test_cons bytewise_isNameStart hremains),
        Template.readName]
      by_cases hstart : Template.isNameStart c = true
      · have hc := isNameStart_lt hstart
        have hrest := hremains.cons hc
        have hsplit : Remains text pos ((c :: cs.takeWhile Template.isNameChar) ++
            cs.dropWhile Template.isNameChar) := by
          rwa [List.cons_append, List.takeWhile_append_dropWhile]
        have hskip := run_skip bytewise_isNameChar hrest
        rw [Nat.add_assoc, ← byteLength_cons_of_lt hc] at hskip
        rw [if_pos hstart, if_pos hstart, run_bind_of_eq rfl, run_bind_of_eq hskip,
          run_since hsplit]
        exact ⟨_, rfl, hsplit.append⟩
      · rw [if_neg hstart, if_neg hstart]
        exact sameReading_fail hremains

theorem sameReading_readNames (hremains : Remains text pos cs) :
    SameReading text (readNames.run text pos) (Template.readNames cs) := by
  have hdot : '.'.toNat < 128 := by decide
  fun_induction Template.readNames cs generalizing pos with
  | case1 cs fault hname =>
      have hitem := sameReading_readName hremains
      exact sameReading_separated_error (hname ▸ hitem)
  | case2 cs name tail hname fault hlater ih =>
      have hitem := sameReading_readName hremains
      rw [hlater] at ih
      exact sameReading_separated_more hdot (hname ▸ hitem) (fun _ => ih) rfl
  | case3 cs name tail hname names left hlater ih =>
      have hitem := sameReading_readName hremains
      rw [hlater] at ih
      exact sameReading_separated_more hdot (hname ▸ hitem) (fun _ => ih) rfl
  | case4 cs name tail hlast hname =>
      have hitem := sameReading_readName hremains
      exact sameReading_separated_last hdot (hname ▸ hitem) hlast
        fun _ => sameReading_pure ()

theorem sameReading_bindVariable (bound : List FieldPath) (path : FieldPath)
    (pattern : List Element) (hremains : Remains text pos cs) :
    SameReading text ((bindVariable bound path pattern).run text pos)
      (Template.bindVariable bound path pattern cs) := by
  unfold bindVariable Template.bindVariable
  split
  next => exact ⟨_, rfl, .duplicate⟩
  next => exact sameReading_pure _ hremains

theorem run_readVariablePattern_of_eq (restSeen : Bool)
    (hremains : Remains text pos ('=' :: cs)) :
    (readVariablePattern restSeen).run text pos =
      (readPattern restSeen).run text (pos + 1) := by
  rw [readVariablePattern, run_if_consume_cons (by decide) hremains]

theorem sameReading_readVariablePattern (restSeen : Bool)
    (hremains : Remains text pos ('}' :: cs)) :
    SameReading text ((readVariablePattern restSeen).run text pos)
      (.ok ([.any], cs)) := by
  have hbrace : '}'.toNat < 128 := by decide
  rw [readVariablePattern, run_if_consume_of_ne (by decide) hremains (by simp),
    run_if_consume_cons hbrace hremains]
  exact sameReading_pure _ (hremains.cons hbrace)

theorem sameReading_readVariablePattern_nil (restSeen : Bool)
    (hremains : Remains text pos []) :
    SameReading text ((readVariablePattern restSeen).run text pos)
      (.error (.malformed .unterminatedVariable [])) := by
  rw [readVariablePattern, run_if_consume_of_ne (by decide) hremains (by simp),
    run_if_consume_of_ne (by decide) hremains (by simp), run_if_atEnd_nil hremains]
  exact sameReading_fail hremains

theorem sameReading_readVariablePattern_of_ne (restSeen : Bool)
    (hremains : Remains text pos cs) (hequal : ∀ tail, cs ≠ '=' :: tail)
    (hbrace : ∀ tail, cs ≠ '}' :: tail) (hne : cs ≠ []) :
    SameReading text ((readVariablePattern restSeen).run text pos)
      (.error (.malformed .invalidFieldPath cs)) := by
  rw [readVariablePattern, run_if_consume_of_ne (by decide) hremains hequal,
    run_if_consume_of_ne (by decide) hremains hbrace, run_if_atEnd_of_ne hremains hne]
  exact sameReading_fail hremains

theorem sameReading_readVariable (restSeen : Bool) (bound : List FieldPath)
    (hremains : Remains text pos cs) :
    SameReading text ((readVariable restSeen bound).run text pos)
      (Template.readVariable restSeen bound cs) := by
  have hequal : '='.toNat < 128 := by decide
  have hfirst := sameReading_readNames hremains
  unfold readVariable
  fun_cases Template.readVariable restSeen bound cs with
  | case1 fault hnames => exact sameReading_bind_error (hnames ▸ hfirst)
  | case2 names tail hnames fault hpattern =>
      refine sameReading_bind (hnames ▸ hfirst) fun mid hmid => ?_
      apply sameReading_bind_error
      rw [run_readVariablePattern_of_eq restSeen hmid, ← hpattern]
      exact sameReading_readPattern restSeen (hmid.cons hequal)
  | case3 names tail hnames pattern left hpattern =>
      refine sameReading_bind (hnames ▸ hfirst) fun mid hmid => ?_
      have hlater := sameReading_readPattern restSeen (hmid.cons hequal)
      rw [← run_readVariablePattern_of_eq restSeen hmid, hpattern] at hlater
      exact sameReading_bind hlater fun _ => sameReading_bindVariable bound _ _
  | case4 names tail hnames =>
      refine sameReading_bind (hnames ▸ hfirst) fun mid hmid => ?_
      exact sameReading_bind (sameReading_readVariablePattern restSeen hmid)
        fun _ => sameReading_bindVariable bound _ _
  | case5 names hnames =>
      refine sameReading_bind (hnames ▸ hfirst) fun mid hmid => ?_
      exact sameReading_bind_error (sameReading_readVariablePattern_nil restSeen hmid)
  | case6 names tail hpattern hclose hne hnames =>
      refine sameReading_bind (hnames ▸ hfirst) fun mid hmid => ?_
      exact sameReading_bind_error
        (sameReading_readVariablePattern_of_ne restSeen hmid hpattern hclose hne)

/-! ## Segments, verbs and templates -/

theorem sameReading_readSegment (restSeen : Bool) (bound : List FieldPath)
    (hremains : Remains text pos cs) :
    SameReading text ((readSegment restSeen bound).run text pos)
      (Template.readSegment restSeen bound cs) := by
  have hbrace : '{'.toNat < 128 := by decide
  unfold readSegment
  fun_cases Template.readSegment restSeen bound cs with
  | case1 cs fault hvariable =>
      have hlater := sameReading_readVariable restSeen bound (hremains.cons hbrace)
      rw [run_if_consume_cons hbrace hremains]
      exact sameReading_bind_error (hvariable ▸ hlater)
  | case2 cs var tail hvariable =>
      have hlater := sameReading_readVariable restSeen bound (hremains.cons hbrace)
      rw [run_if_consume_cons hbrace hremains]
      exact sameReading_bind (hvariable ▸ hlater) fun _ => sameReading_pure _
  | case3 cs hplain fault helement =>
      have hlater := sameReading_readElement restSeen hremains
      rw [run_if_consume_of_ne hbrace hremains hplain]
      exact sameReading_bind_error (helement ▸ hlater)
  | case4 cs hplain element tail helement =>
      have hlater := sameReading_readElement restSeen hremains
      rw [run_if_consume_of_ne hbrace hremains hplain]
      exact sameReading_bind (helement ▸ hlater) fun _ => sameReading_pure _

theorem sameReading_closeSegments_nil (hremains : Remains text pos []) :
    SameReading text (closeSegments.run text pos) (.ok ((), [])) := by
  rw [closeSegments, run_if_atEnd_nil hremains]
  exact sameReading_pure () hremains

theorem sameReading_closeSegments_colon (hremains : Remains text pos (':' :: cs)) :
    SameReading text (closeSegments.run text pos) (.ok ((), ':' :: cs)) := by
  rw [closeSegments, run_if_atEnd_of_ne hremains (by simp),
    run_if_test_cons (by decide) hremains]
  exact sameReading_pure () hremains

theorem sameReading_closeSegments_brace (hremains : Remains text pos ('}' :: cs)) :
    SameReading text (closeSegments.run text pos)
      (.error (.malformed .unbalancedBrace ('}' :: cs))) := by
  rw [closeSegments, run_if_atEnd_of_ne hremains (by simp),
    run_if_test_of_ne (by decide) hremains (by simp),
    run_if_test_cons (by decide) hremains]
  exact sameReading_fail hremains

theorem sameReading_closeSegments_of_ne (hremains : Remains text pos cs)
    (hne : cs ≠ []) (hcolon : ∀ tail, cs ≠ ':' :: tail)
    (hbrace : ∀ tail, cs ≠ '}' :: tail) :
    SameReading text (closeSegments.run text pos)
      (.error (.malformed .reservedCharacter cs)) := by
  rw [closeSegments, run_if_atEnd_of_ne hremains hne,
    run_if_test_of_ne (by decide) hremains hcolon,
    run_if_test_of_ne (by decide) hremains hbrace]
  exact sameReading_fail hremains

theorem sameReading_readSegments (restSeen : Bool) (bound : List FieldPath)
    (hremains : Remains text pos cs) :
    SameReading text ((readSegments (restSeen, bound)).run text pos)
      (Template.readSegments restSeen bound cs) := by
  have hslash : '/'.toNat < 128 := by decide
  fun_induction Template.readSegments restSeen bound cs generalizing pos with
  | case1 restSeen bound cs fault hsegment =>
      have hitem := sameReading_readSegment restSeen bound hremains
      exact sameReading_separated_error (hsegment ▸ hitem)
  | case2 restSeen bound cs segment tail hsegment fault hlater ih =>
      have hitem := sameReading_readSegment restSeen bound hremains
      rw [hlater] at ih
      exact sameReading_separated_more hslash (hsegment ▸ hitem) (fun _ => ih) rfl
  | case3 restSeen bound cs segment tail hsegment segments left hlater ih =>
      have hitem := sameReading_readSegment restSeen bound hremains
      rw [hlater] at ih
      exact sameReading_separated_more hslash (hsegment ▸ hitem) (fun _ => ih) rfl
  | case4 restSeen bound cs segment hsegment =>
      have hitem := sameReading_readSegment restSeen bound hremains
      exact sameReading_separated_last hslash (hsegment ▸ hitem) (by simp)
        fun _ => sameReading_closeSegments_nil
  | case5 restSeen bound cs segment tail hsegment =>
      have hitem := sameReading_readSegment restSeen bound hremains
      exact sameReading_separated_last hslash (hsegment ▸ hitem) (by simp)
        fun _ => sameReading_closeSegments_colon
  | case6 restSeen bound cs segment tail hsegment =>
      have hitem := sameReading_readSegment restSeen bound hremains
      exact sameReading_separated_last hslash (hsegment ▸ hitem) (by simp)
        fun _ => sameReading_closeSegments_brace
  | case7 restSeen bound cs segment tail hlast hne hcolon hbrace hsegment =>
      have hitem := sameReading_readSegment restSeen bound hremains
      exact sameReading_separated_last hslash (hsegment ▸ hitem) hlast
        fun _ hmid => sameReading_closeSegments_of_ne hmid hne hcolon hbrace

theorem sameReading_readVerb (hremains : Remains text pos cs) :
    SameReading text (readVerb.run text pos)
      ((Template.readVerb cs).map fun verb => (verb, [])) := by
  have hskip := run_skip bytewise_isTextChar hremains
  have hafter := hremains.dropWhile Template.isTextChar
  rw [readVerb, run_bind_of_eq rfl]
  fun_cases Template.readVerb cs with
  | case1 c tail hdrop =>
      rw [hdrop] at hafter
      rw [run_bind_of_eq hskip, run_if_atEnd_of_ne hafter (by simp)]
      exact sameReading_fail hafter
  | case2 hdrop hnil =>
      subst hnil
      have hstay : (skip Template.isTextChar).run text pos = .ok ((), pos) := hskip
      rw [run_bind_of_eq hstay, run_if_atEnd_nil hremains,
        run_bind_of_eq rfl, if_pos rfl]
      exact sameReading_fail hremains
  | case3 hdrop hne =>
      have htake : cs.takeWhile Template.isTextChar = cs := by
        rw [← List.append_nil (cs.takeWhile _), ← hdrop,
          List.takeWhile_append_dropWhile]
      have hlength := byteLength_ne_zero hne
      have hwhole : Remains text pos (cs ++ []) := by rwa [List.append_nil]
      rw [hdrop, htake] at hafter
      rw [run_bind_of_eq hskip, htake, run_if_atEnd_nil hafter, run_bind_of_eq rfl,
        if_neg (by omega), run_since hwhole]
      exact ⟨_, rfl, hafter⟩

theorem run_readTemplate (hremains : Remains text pos ('/' :: cs)) (hne : cs ≠ [])
    (hverb : ∀ tail, cs ≠ ':' :: tail) :
    readTemplate.run text pos = readSegmentsAndVerb.run text (pos + 1) := by
  have hslash : '/'.toNat < 128 := by decide
  have hrest := hremains.cons hslash
  rw [readTemplate, run_if_consume_cons hslash hremains,
    run_if_atEnd_of_ne hrest hne, run_if_test_of_ne (by decide) hrest hverb]

/-- Nothing is left after a template, so only its outcome is told. -/
theorem sameReading_readTemplate (hremains : Remains text pos cs) :
    ∃ read, SameReading text (readTemplate.run text pos) read ∧
      Template.readTemplate cs = read.map Prod.fst := by
  have hslash : '/'.toNat < 128 := by decide
  have hcolon : ':'.toNat < 128 := by decide
  fun_cases Template.readTemplate cs with
  | case1 =>
      have hrest := hremains.cons hslash
      rw [readTemplate, run_if_consume_cons hslash hremains, run_if_atEnd_nil hrest]
      exact ⟨_, sameReading_pure _ hrest, rfl⟩
  | case2 tail =>
      have hrest := hremains.cons hslash
      rw [readTemplate, run_if_consume_cons hslash hremains,
        run_if_atEnd_of_ne hrest (by simp), run_if_test_cons hcolon hrest]
      exact ⟨_, sameReading_fail hrest, rfl⟩
  | case3 cs hne hverb fault hsegments =>
      have hread := sameReading_readSegments false [] (hremains.cons hslash)
      rw [run_readTemplate hremains hne hverb]
      exact ⟨_, sameReading_bind_error (hsegments ▸ hread), rfl⟩
  | case4 cs hne hverb segments tail hsegments fault hfault =>
      have hread := sameReading_readSegments false [] (hremains.cons hslash)
      rw [run_readTemplate hremains hne hverb]
      refine ⟨.error fault,
        sameReading_bind (hsegments ▸ hread) fun mid hmid => ?_, rfl⟩
      have hlater := sameReading_readVerb (hmid.cons hcolon)
      rw [hfault] at hlater
      rw [run_if_consume_cons hcolon hmid]
      exact sameReading_bind_error hlater
  | case5 cs hne hverb segments tail hsegments verb hsome =>
      have hread := sameReading_readSegments false [] (hremains.cons hslash)
      rw [run_readTemplate hremains hne hverb]
      refine ⟨.ok (⟨segments, some verb⟩, []),
        sameReading_bind (hsegments ▸ hread) fun mid hmid => ?_, rfl⟩
      have hlater := sameReading_readVerb (hmid.cons hcolon)
      rw [hsome] at hlater
      rw [run_if_consume_cons hcolon hmid]
      exact sameReading_bind hlater fun _ => sameReading_pure _
  | case6 cs hne hverb segments tail hlast hsegments =>
      have hread := sameReading_readSegments false [] (hremains.cons hslash)
      rw [run_readTemplate hremains hne hverb]
      refine ⟨.ok (⟨segments, none⟩, tail),
        sameReading_bind (hsegments ▸ hread) fun mid hmid => ?_, rfl⟩
      rw [run_if_consume_of_ne hcolon hmid hlast]
      exact sameReading_pure _ hmid
  | case7 cs hone hverb hne =>
      rw [readTemplate, run_if_consume_of_ne hslash hremains hne]
      exact ⟨_, sameReading_fail hremains, rfl⟩

end Scanner

/-! ## Whole texts -/

/-- What an error says, without the text. -/
def Halt.ofError : ParseError → Halt
  | .malformed _ offset reason => .malformed reason offset
  | .duplicateVariable _ path => .duplicate path

/-- Reading in place is reading: no cut fails. -/
theorem scan_eq (text : String) :
    scan text = (Template.parse text).mapError Halt.ofError := by
  obtain ⟨read, hsame, hread⟩ :=
    Scanner.sameReading_readTemplate (remains_zero text)
  unfold scan Template.parse
  rw [hread]
  cases read with
  | ok read =>
      obtain ⟨next, hrun, -⟩ := hsame
      rw [hrun]
      rfl
  | error fault =>
      obtain ⟨halt, hrun, hfault⟩ := hsame
      rw [hrun]
      cases hfault with
      | malformed hremains =>
          simp only [Except.map, Except.mapError, Halt.ofError, hremains.offset_eq]
      | duplicate => rfl

end HttpRoutes
