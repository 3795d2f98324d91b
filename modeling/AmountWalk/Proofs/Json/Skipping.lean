import AmountWalk.Proofs.Json.Grammar
import AmountWalk.Proofs.Json.Reading

/-!
# Every value is skipped

The skipper takes one character at a time and keeps the open brackets on a stack. So what it makes of a
piece of the grammar is one equation for every stack and every text behind the piece: it goes on behind
the piece in another mode (`IsValue.skipFrom`). A number is the one value that the skipper does not know
to be over before it has seen what follows.
-/

namespace AmountWalk.Json

variable {mode next : SkipMode} {stack outer : List Bracket} {ch : Char} {rest : List Char}

/-! ## Steps -/

theorem skipFrom_go (h : mode.step stack ch rest = .ok (.go next outer)) :
    skipFrom mode stack (ch :: rest) = skipFrom next outer rest := by
  rw [skipFrom, h]

/-- Behind the last value nothing more is skipped. -/
theorem skipFrom_after_nil (rest : List Char) : skipFrom .after [] rest = .ok rest := by
  cases rest <;> rfl

/-- A last character of a value leads behind it. -/
theorem skipFrom_finish (h : mode.step stack ch rest = .ok (SkipMode.finish outer)) :
    skipFrom mode stack (ch :: rest) = skipFrom .after outer rest := by
  cases outer with
  | nil =>
    rw [skipFrom_after_nil, skipFrom, h]
    rfl
  | cons bracket outer => exact skipFrom_go h

/-- Characters of one kind are passed over where a mode keeps to itself at each of them. -/
theorem skipFrom_run {kind : Char → Bool} {run : List Char} (hrun : ∀ ch ∈ run, kind ch = true)
    (h : ∀ ch rest, kind ch = true → mode.step stack ch rest = .ok (.go mode stack))
    (text : List Char) : skipFrom mode stack (run ++ text) = skipFrom mode stack text := by
  induction run with
  | nil => rfl
  | cons ch run ih =>
    rw [List.cons_append, skipFrom_go (h ch _ (hrun ch List.mem_cons_self))]
    exact ih fun other hother => hrun other (List.mem_cons_of_mem _ hother)

/-- The modes in which a text may go on with a blank. -/
def SkipMode.MayPause (mode : SkipMode) (stack : List Bracket) : Prop :=
  mode = .value ∨ mode = .firstItem ∨ mode = .firstKey ∨ mode = .nextKey ∨ mode = .colon ∨
    mode = .after ∧ stack ≠ []

theorem skipFrom_blanks {blanks : List Char} (hblanks : Blanks blanks) (hmode : mode.MayPause stack)
    (text : List Char) : skipFrom mode stack (blanks ++ text) = skipFrom mode stack text := by
  refine skipFrom_run hblanks (fun ch rest h => ?_) text
  obtain rfl | rfl | rfl | rfl | rfl | ⟨rfl, hne⟩ := hmode
  iterate 5 exact if_pos h
  match stack, hne with
  | .square :: _, _ | .curly :: _, _ => exact if_pos h

/-! ## Words -/

theorem skipFrom_word {letters : List Char} (hne : letters ≠ []) (stack : List Bracket)
    (rest : List Char) :
    skipFrom (.word letters) stack (letters ++ rest) = skipFrom .after stack rest := by
  induction letters with
  | nil => exact absurd rfl hne
  | cons letter letters ih =>
    cases letters with
    | nil => exact skipFrom_finish (if_pos rfl)
    | cons other letters =>
      have hstep : (SkipMode.word (letter :: other :: letters)).step stack letter
          (other :: letters ++ rest) = .ok (.go (.word (other :: letters)) stack) := if_pos rfl
      rw [List.cons_append, skipFrom_go hstep, ih (List.cons_ne_nil _ _)]

/-! ## Strings -/

theorem IsStringPiece.skipFrom {piece : List Char} (h : IsStringPiece piece) (isKey : Bool)
    (stack : List Bracket) (rest : List Char) :
    skipFrom (.string isKey) stack (piece ++ rest) = skipFrom (.string isKey) stack rest := by
  cases h with
  | plain hquote hslash hcontrol =>
    exact skipFrom_go (by rw [SkipMode.step, if_neg hquote, if_neg hslash, if_neg hcontrol])
  | @escape letter hletter =>
    have hne : letter ≠ 'u' := by
      rintro rfl
      cases hletter
    calc Json.skipFrom (.string isKey) stack ('\\' :: letter :: rest)
        = Json.skipFrom (.escape isKey) stack (letter :: rest) := skipFrom_go rfl
      _ = Json.skipFrom (.string isKey) stack rest :=
        skipFrom_go (by rw [SkipMode.step, if_neg hne, if_pos hletter])
  | @unit a b c d ha hb hc hd =>
    have hdigit {ch : Char} (h : (hexValue? ch).isSome) (digits : Nat) (rest : List Char) :
        Json.skipFrom (.unit isKey digits) stack (ch :: rest) = Json.skipFrom
          (if digits = 3 then .string isKey else .unit isKey (digits + 1)) stack rest := by
      obtain ⟨value, hvalue⟩ := Option.isSome_iff_exists.mp h
      refine skipFrom_go ?_
      rw [SkipMode.step]
      simp only [hvalue]
      split <;> rfl
    calc Json.skipFrom (.string isKey) stack ('\\' :: 'u' :: a :: b :: c :: d :: rest)
        = Json.skipFrom (.escape isKey) stack ('u' :: a :: b :: c :: d :: rest) := skipFrom_go rfl
      _ = Json.skipFrom (.unit isKey 0) stack (a :: b :: c :: d :: rest) := skipFrom_go rfl
      _ = Json.skipFrom (.string isKey) stack rest := by
        rw [hdigit ha, if_neg (by decide), hdigit hb, if_neg (by decide), hdigit hc,
          if_neg (by decide), hdigit hd, if_pos rfl]

/-- Behind its opening quote, a string is skipped to its end: a key up to the colon, and anything else as a
value. -/
theorem skipFrom_string {pieces : List (List Char)} (h : ∀ piece ∈ pieces, IsStringPiece piece)
    (isKey : Bool) (stack : List Bracket) (rest : List Char) :
    skipFrom (.string isKey) stack (pieces.flatten ++ '"' :: rest)
      = skipFrom (if isKey then .colon else .after) stack rest := by
  induction pieces with
  | nil =>
    cases isKey with
    | false => exact skipFrom_finish rfl
    | true => exact skipFrom_go rfl
  | cons piece pieces ih =>
    rw [List.flatten_cons, List.append_assoc, (h piece List.mem_cons_self).skipFrom]
    exact ih fun other hother => h other (List.mem_cons_of_mem _ hother)

/-! ## Numbers -/

/-- The modes in which a number may end. -/
def SkipMode.MayEnd (mode : SkipMode) : Prop :=
  mode = .zero ∨ mode = .whole ∨ mode = .fraction ∨ mode = .power

/-- A number ends where nothing prolongs it. -/
theorem SkipMode.MayEnd.skipFrom (h : mode.MayEnd) (stack : List Bracket) (hends : Ends rest) :
    skipFrom mode stack rest = skipFrom .after stack rest := by
  cases rest with
  | nil => obtain rfl | rfl | rfl | rfl := h <;> rfl
  | cons ch rest =>
    have hprolongs := hends ch rfl
    simp only [prolongs, Bool.or_eq_false_iff, beq_eq_false_iff_ne] at hprolongs
    obtain ⟨⟨⟨hdigit, hpoint⟩, hsmall⟩, hlarge⟩ := hprolongs
    have hstep : mode.step stack ch rest = SkipMode.after.step stack ch rest := by
      obtain rfl | rfl | rfl | rfl := h <;>
        simp [SkipMode.step, SkipMode.numberStep, hdigit, hpoint, hsmall, hlarge]
    rw [Json.skipFrom, Json.skipFrom, hstep]

/-- Digits that have to be there lead to the mode that takes more of them. -/
theorem IsDigits.skipFrom {digits : List Char} (hdigits : IsDigits digits)
    (hfirst : ∀ ch rest, isDigit ch = true → mode.step stack ch rest = .ok (.go next stack))
    (hmore : ∀ ch rest, isDigit ch = true → next.step stack ch rest = .ok (.go next stack))
    (text : List Char) : skipFrom mode stack (digits ++ text) = skipFrom next stack text := by
  obtain ⟨ch, digits, rfl⟩ := List.exists_cons_of_ne_nil hdigits.1
  rw [List.cons_append, skipFrom_go (hfirst ch _ (hdigits.2 ch List.mem_cons_self))]
  exact skipFrom_run (fun other hother => hdigits.2 other (List.mem_cons_of_mem _ hother)) hmore text

theorem IsExponent.skipFrom {text : List Char} (h : IsExponent text)
    (hmode : mode = .zero ∨ mode = .whole ∨ mode = .fraction) (stack : List Bracket)
    (hends : Ends rest) : skipFrom mode stack (text ++ rest) = skipFrom .after stack rest := by
  obtain rfl | ⟨mark, sign, digits, hmark, hsign, hdigits, rfl⟩ := h
  · have hend : mode.MayEnd := by
      obtain rfl | rfl | rfl := hmode
      exacts [.inl rfl, .inr (.inl rfl), .inr (.inr (.inl rfl))]
    exact hend.skipFrom stack hends
  have hleads : Json.skipFrom mode stack (mark :: (sign ++ digits) ++ rest)
      = Json.skipFrom .mark stack (sign ++ (digits ++ rest)) := by
    rw [List.cons_append, List.append_assoc]
    obtain rfl | rfl | rfl := hmode <;> obtain rfl | rfl := hmark <;> exact skipFrom_go rfl
  have hpower : ∀ ch rest, isDigit ch = true →
      SkipMode.power.step stack ch rest = .ok (.go .power stack) := fun ch rest h => if_pos h
  rw [hleads, ← SkipMode.MayEnd.skipFrom (.inr (.inr (.inr rfl))) stack hends]
  -- Without a sign, the first digit stands where a sign may.
  obtain rfl | hsign : sign = [] ∨ ∃ ch, (ch = '+' ∨ ch = '-') ∧ sign = [ch] := by
    obtain rfl | rfl | rfl := hsign
    exacts [.inl rfl, .inr ⟨'+', .inl rfl, rfl⟩, .inr ⟨'-', .inr rfl, rfl⟩]
  · refine hdigits.skipFrom (fun ch rest hdigit => ?_) hpower rest
    have hsign : ¬(ch = '+' ∨ ch = '-') := by
      rintro (rfl | rfl)
      · cases hdigit
      · cases hdigit
    rw [SkipMode.step, if_neg hsign]
    exact if_pos hdigit
  · obtain ⟨ch, hch, rfl⟩ := hsign
    have hstep : SkipMode.mark.step stack ch (digits ++ rest) = .ok (.go .sign stack) := if_pos hch
    have hpowers : ∀ ch rest, isDigit ch = true →
        SkipMode.sign.step stack ch rest = .ok (.go .power stack) := fun ch rest h => if_pos h
    rw [List.singleton_append, skipFrom_go hstep]
    exact hdigits.skipFrom hpowers hpower rest

theorem IsFraction.skipFrom {text exponent : List Char} (h : IsFraction text)
    (hexponent : IsExponent exponent) (hmode : mode = .zero ∨ mode = .whole) (stack : List Bracket)
    (hends : Ends rest) :
    skipFrom mode stack (text ++ (exponent ++ rest)) = skipFrom .after stack rest := by
  obtain rfl | ⟨digits, hdigits, rfl⟩ := h
  · exact hexponent.skipFrom (hmode.imp_right .inl) stack hends
  have hleads : Json.skipFrom mode stack ('.' :: digits ++ (exponent ++ rest))
      = Json.skipFrom .point stack (digits ++ (exponent ++ rest)) := by
    obtain rfl | rfl := hmode <;> exact skipFrom_go rfl
  have hpoint : ∀ ch rest, isDigit ch = true →
      SkipMode.point.step stack ch rest = .ok (.go .fraction stack) := fun ch rest h => if_pos h
  have hfraction : ∀ ch rest, isDigit ch = true →
      SkipMode.fraction.step stack ch rest = .ok (.go .fraction stack) := fun ch rest h => if_pos h
  rw [hleads, hdigits.skipFrom hpoint hfraction]
  exact hexponent.skipFrom (.inr (.inr rfl)) stack hends

/-- A digit other than zero starts the digits before the point. -/
theorem step_of_isDigit (hdigit : isDigit ch = true) (hzero : ch ≠ '0')
    (hmode : mode = .value ∨ mode = .minus) (stack : List Bracket) (rest : List Char) :
    mode.step stack ch rest = .ok (.go .whole stack) := by
  have hne {other : Char} (hother : isDigit other = false) : ch ≠ other := by
    rintro rfl
    rw [hdigit] at hother
    cases hother
  obtain rfl | rfl := hmode
  · have hblank := isBlank_of_isDigit hdigit
    simp [SkipMode.step, SkipMode.valueStep, hblank, hzero, hdigit, @hne 'n' rfl, @hne 't' rfl,
      @hne 'f' rfl, @hne '"' rfl, @hne '[' rfl, @hne '\x7b' rfl, @hne '-' rfl]
  · simp [SkipMode.step, SkipMode.digitStep, hzero, hdigit]

/-- The digits before the point lead to one of the modes that know of a point. -/
theorem IsWholeNumber.skipFrom {text : List Char} (h : IsWholeNumber text)
    (hmode : mode = .value ∨ mode = .minus) (stack : List Bracket) (rest : List Char) :
    ∃ next, (next = .zero ∨ next = .whole) ∧
      skipFrom mode stack (text ++ rest) = skipFrom next stack rest := by
  obtain rfl | ⟨⟨hne, hdigits⟩, hzero⟩ := h
  · refine ⟨.zero, .inl rfl, ?_⟩
    obtain rfl | rfl := hmode <;> exact skipFrom_go rfl
  · obtain ⟨ch, digits, rfl⟩ := List.exists_cons_of_ne_nil hne
    have hfirst := step_of_isDigit (hdigits ch List.mem_cons_self) (by simpa using hzero) hmode stack
      (digits ++ rest)
    have hwhole : ∀ ch rest, isDigit ch = true →
        SkipMode.whole.step stack ch rest = .ok (.go .whole stack) := fun ch rest h => if_pos h
    refine ⟨.whole, .inr rfl, ?_⟩
    rw [List.cons_append, skipFrom_go hfirst]
    exact skipFrom_run (fun other hother => hdigits other (List.mem_cons_of_mem _ hother)) hwhole rest

theorem IsNumber.skipFrom {text : List Char} (h : IsNumber text) (stack : List Bracket)
    (hends : Ends rest) : skipFrom .value stack (text ++ rest) = skipFrom .after stack rest := by
  obtain ⟨sign, whole, fraction, exponent, hsign, hwhole, hfraction, hexponent, rfl⟩ := h
  obtain ⟨mode, hmode, hlead⟩ : ∃ mode, (mode = .value ∨ mode = .minus) ∧ ∀ text,
      Json.skipFrom .value stack (sign ++ text) = Json.skipFrom mode stack text := by
    obtain rfl | rfl := hsign
    exacts [⟨.value, .inl rfl, fun _ => rfl⟩, ⟨.minus, .inr rfl, fun _ => skipFrom_go rfl⟩]
  obtain ⟨next, hnext, hskip⟩ := hwhole.skipFrom hmode stack (fraction ++ (exponent ++ rest))
  simp only [List.append_assoc]
  rw [hlead, hskip, hfraction.skipFrom hexponent hnext stack hends]

/-! ## Arrays and objects -/

namespace Bracket

/-- The bracket that closes this one. -/
def closing : Bracket → Char
  | square => ']'
  | curly => '\x7d'

/-- The mode behind the opening bracket. -/
def firstMode : Bracket → SkipMode
  | square => .firstItem
  | curly => .firstKey

/-- The mode behind a comma. -/
def nextMode : Bracket → SkipMode
  | square => .value
  | curly => .nextKey

end Bracket

variable {bracket : Bracket} {pieces : List (List Char)} {text : List Char}

/-- A piece of what stands between brackets is skipped, be it the first one or one behind a comma. -/
def SkippedBetween (bracket : Bracket) (stack : List Bracket) (piece : List Char) : Prop :=
  ∀ mode, mode = bracket.firstMode ∨ mode = bracket.nextMode → ∀ rest, Ends rest →
    skipFrom mode (bracket :: stack) (piece ++ rest) = skipFrom .after (bracket :: stack) rest

theorem mayPause_after (bracket : Bracket) (stack : List Bracket) :
    SkipMode.after.MayPause (bracket :: stack) := by
  simp [SkipMode.MayPause]

theorem mayPause_between (hmode : mode = bracket.firstMode ∨ mode = bracket.nextMode) (stack : List Bracket) :
    mode.MayPause stack := by
  obtain rfl | rfl := hmode <;> cases bracket <;> simp [SkipMode.MayPause, Bracket.firstMode, Bracket.nextMode]

/-- **Behind its opening bracket, a frame is skipped to its closing one** when its pieces are skipped. -/
theorem skipFrom_frame {first : Bool} (hframe : Frame bracket.closing first pieces text)
    (hpieces : ∀ piece ∈ pieces, SkippedBetween bracket stack piece) (rest : List Char) :
    skipFrom (if first then bracket.firstMode else .after) (bracket :: stack) (text ++ rest)
      = skipFrom .after stack rest := by
  have hclosing : IsClosing bracket.closing := by
    cases bracket
    exacts [.inl rfl, .inr rfl]
  -- The mode tells whether a comma is due, as the frame does; the stack is the same at every piece.
  induction hframe with
  | @close first blanks hblanks =>
    rw [List.append_assoc, List.singleton_append]
    cases first with
    | true =>
      rw [if_pos rfl, skipFrom_blanks hblanks (mayPause_between (.inl rfl) _)]
      cases bracket <;> exact skipFrom_finish rfl
    | false =>
      rw [if_neg Bool.false_ne_true, skipFrom_blanks hblanks (mayPause_after bracket stack)]
      cases bracket <;> exact skipFrom_finish rfl
  | @first before piece text pieces hbefore hrest ih =>
    have hmore := ih fun other hother => hpieces other (List.mem_cons_of_mem _ hother)
    rw [if_pos rfl, List.append_assoc, List.append_assoc,
      skipFrom_blanks hbefore (mayPause_between (.inl rfl) _),
      hpieces piece List.mem_cons_self _ (.inl rfl) _ (hrest.ends hclosing rest)]
    exact hmore
  | @next after before piece text pieces hafter hbefore hrest ih =>
    have hmore := ih fun other hother => hpieces other (List.mem_cons_of_mem _ hother)
    have hcomma (text : List Char) : skipFrom .after (bracket :: stack) (',' :: text)
        = skipFrom bracket.nextMode (bracket :: stack) text := by
      cases bracket <;> exact skipFrom_go rfl
    rw [if_neg Bool.false_ne_true, List.append_assoc, List.cons_append, List.append_assoc,
      List.append_assoc, skipFrom_blanks hafter (mayPause_after bracket stack), hcomma,
      skipFrom_blanks hbefore (mayPause_between (.inr rfl) _),
      hpieces piece List.mem_cons_self _ (.inr rfl) _ (hrest.ends hclosing rest)]
    exact hmore

/-- Wherever it stands, a text is skipped as one value. -/
def SkippedAsValue (text : List Char) : Prop :=
  ∀ stack rest, Ends rest → skipFrom .value stack (text ++ rest) = skipFrom .after stack rest

/-- An item is skipped as the value that it is: it is not taken for the end of the array. -/
theorem SkippedAsValue.between (h : SkippedAsValue text) (hstarts : StartsItem text)
    (stack : List Bracket) : SkippedBetween .square stack text := by
  intro mode hmode rest hends
  obtain rfl | rfl := hmode
  · obtain ⟨ch, tail, rfl, hblank, hclose⟩ := hstarts
    have hstep : SkipMode.firstItem.step (.square :: stack) ch (tail ++ rest)
        = SkipMode.value.step (.square :: stack) ch (tail ++ rest) := by
      simp only [SkipMode.step, SkipMode.closeOr, hblank, if_neg hclose, Bool.false_eq_true, if_false]
    have hvalue := h (.square :: stack) rest hends
    rw [List.cons_append, skipFrom, ← hstep] at hvalue
    rw [Bracket.firstMode, List.cons_append, skipFrom]
    exact hvalue
  · exact h _ rest hends

/-- A member is skipped from its key on. -/
theorem IsMember.skippedBetween {piece value : List Char} (h : IsMember piece value)
    (hvalue : SkippedAsValue value) (stack : List Bracket) : SkippedBetween .curly stack piece := by
  intro mode hmode rest hends
  obtain ⟨key, tail, ⟨pieces, hpieces, rfl⟩, ⟨before, after, hbefore, hafter, rfl⟩, rfl⟩ := h
  have hquote (text : List Char) : skipFrom mode (.curly :: stack) ('"' :: text)
      = skipFrom (.string true) (.curly :: stack) text := by
    obtain rfl | rfl := hmode <;> exact skipFrom_go rfl
  have hcolon (text : List Char) : skipFrom .colon (.curly :: stack) (':' :: text)
      = skipFrom .value (.curly :: stack) text := skipFrom_go rfl
  simp only [List.cons_append, List.append_assoc, List.nil_append]
  rw [hquote, skipFrom_string hpieces, if_pos rfl, skipFrom_blanks hbefore (by simp [SkipMode.MayPause]),
    hcolon, skipFrom_blanks hafter (.inl rfl), hvalue _ _ hends]

theorem skippedBetween_of_members {values : List (List Char)}
    (hmembers : List.Forall₂ IsMember pieces values) (hvalues : ∀ value ∈ values, SkippedAsValue value)
    (stack : List Bracket) : ∀ piece ∈ pieces, SkippedBetween .curly stack piece := by
  induction hmembers with
  | nil => exact nofun
  | @cons piece value pieces values hmember _ ih =>
    intro other hother
    obtain rfl | hother := List.mem_cons.mp hother
    · exact hmember.skippedBetween (hvalues value List.mem_cons_self) stack
    · exact ih (fun value hvalue => hvalues value (List.mem_cons_of_mem _ hvalue)) other hother

/-! ## Values -/

/-- **Every value is skipped to its end,** whatever brackets are open. -/
theorem IsValue.skippedAsValue {text : List Char} (h : IsValue text) : SkippedAsValue text := by
  induction h with
  | word h =>
    intro stack rest _
    simp only [List.mem_cons, List.not_mem_nil, or_false] at h
    obtain rfl | rfl | rfl := h
    iterate 3
      refine (skipFrom_go rfl).trans (skipFrom_word (List.cons_ne_nil _ _) stack rest)
  | string h =>
    intro stack rest _
    obtain ⟨pieces, hpieces, rfl⟩ := h
    have hquote : skipFrom .value stack ('"' :: (pieces.flatten ++ ['"']) ++ rest)
        = skipFrom (.string false) stack (pieces.flatten ++ '"' :: rest) := by
      simp only [List.cons_append, List.append_assoc, List.nil_append]
      exact skipFrom_go rfl
    rw [hquote]
    exact skipFrom_string hpieces false stack rest
  | number h => exact fun stack rest hends => h.skipFrom stack hends
  | @array items body hitems hframe ih =>
    intro stack rest _
    have hpieces : ∀ item ∈ items, SkippedBetween .square stack item :=
      fun item hmem => (ih item hmem).between (hitems item hmem).startsItem stack
    have hskip := skipFrom_frame (show Frame Bracket.square.closing true items body from hframe) hpieces
      rest
    exact (skipFrom_go rfl).trans hskip
  | @object values pieces body hvalues hmembers hframe ih =>
    intro stack rest _
    have hpieces := skippedBetween_of_members hmembers ih stack
    have hskip := skipFrom_frame (show Frame Bracket.curly.closing true pieces body from hframe) hpieces
      rest
    exact (skipFrom_go rfl).trans hskip

/-- **Under a key that names no field, any value may stand.** -/
theorem skipped_isValue : Skipped IsValue := by
  intro piece hpiece blanks rest hblanks hends
  rw [skipValue, skipFrom_blanks hblanks (.inl rfl), hpiece.skippedAsValue [] rest hends,
    skipFrom_after_nil]

end AmountWalk.Json
