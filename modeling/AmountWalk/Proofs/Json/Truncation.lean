import AmountWalk.Proofs.Json.Cut
import AmountWalk.Proofs.Json.RoundTrip

/-!
# Truncated texts are noticed

A text that denotes a value is no longer read when its end is missing, however much of it that is: it
ends too early, and no other flaw is met before that. It makes no difference how the text is laid out,
as long as its objects have no keys that name no field. What stands under such a key is skipped, and
the skipper takes a number for malformed that is cut behind its minus sign.

There is one lemma for each form of a value, which asks of its parts that they starve when they are cut
(`Starves`), and `Codec.cuts` puts them together along the codec. Numbers are where the two ways of
being cut part (`Codec.isOpen`): everything else ends with a character of its own.
-/

namespace AmountWalk.Json

/-- No text stands under a key that names no field. -/
abbrev NoUnknown : List Char → Prop := fun _ => False

theorem skipped_noUnknown : Skipped NoUnknown := fun _ h => h.elim

/-- Whether a value has no end of its own: it may be the front of another value. -/
def Codec.isOpen : {α : Type} → Codec α → Bool
  | _, .count => true
  | _, .via codec _ _ _ => codec.isOpen
  | _, _ => false

variable {α β ρ : Type} {front text piece tail : List Char}

/-- The texts that denote values starve where they are cut, and those that have an end of their own
break there. -/
structure Codec.Cuts (codec : Codec α) : Prop where
  starves : ∀ text value, codec.Denotes NoUnknown text value → Starves codec.read text
  breaks : codec.isOpen = false →
    ∀ text value, codec.Denotes NoUnknown text value → Breaks codec.read text

theorem Codec.Cuts.of_breaks {codec : Codec α}
    (h : ∀ text value, codec.Denotes NoUnknown text value → Breaks codec.read text) :
    codec.Cuts :=
  ⟨fun text value hdenotes => (h text value hdenotes).starves, fun _ => h⟩

/-! ## Plain values -/

/-- A step that fails is the last one. -/
theorem error_bind (flaw : Flaw) (next : α → Except Flaw β) :
    ((Except.error flaw : Except Flaw α) >>= next) = .error flaw := rfl

theorem Codec.read_nil : {α : Type} → (codec : Codec α) → codec.read [] = .error .cutShort
  | _, .via codec _ _ _ => by simp only [Codec.read, codec.read_nil, Except.map]
  | _, .flag | _, .count | _, .text | _, .letter | _, .letterOrNull | _, .list _ | _, .variant _ _
  | _, .tagged _ _ _ _ _ | _, .record _ => rfl

theorem Codec.cuts_flag : Codec.flag.Cuts := by
  refine .of_breaks ?_
  rintro text value rfl front hcut
  cases value with
  | true =>
    rcases isCut_cons hcut with rfl | ⟨rest, rfl, hrest⟩
    · rfl
    · exact congrArg (Except.map fun rest => (true, rest)) (readWord_cut hrest)
  | false =>
    rcases isCut_cons hcut with rfl | ⟨rest, rfl, hrest⟩
    · rfl
    · exact congrArg (Except.map fun rest => (false, rest)) (readWord_cut hrest)

/-- The front of a number is a number, unless it is empty. -/
theorem Codec.cuts_count : Codec.count.Cuts where
  starves := by
    rintro text n rfl front hcut
    rcases isCut_writeNat hcut with rfl | ⟨m, hm, rfl⟩
    · exact Or.inl rfl
    · have hlt : m < 2 ^ 64 := Nat.lt_of_le_of_lt hm n.toNat_lt
      have hvalue : (UInt64.ofNat m).toNat = m := UInt64.toNat_ofNat_of_lt' hlt
      have hreads : Codec.count.Reads NoUnknown := Codec.reads_count
      have hread := (hreads _ (UInt64.ofNat m) rfl).2 [] ends_nil
      rw [hvalue, List.append_nil] at hread
      exact Or.inr ⟨_, hread⟩
  breaks := nofun

theorem Quotes.readQuoted_cut {content : List Char} (h : Quotes text content)
    (hcut : IsCut front text) : Json.readQuoted front = .error .cutShort := by
  obtain ⟨inner, rfl, -⟩ := h.readString
  rcases isCut_cons hcut with rfl | ⟨rest, rfl, hrest⟩
  · rfl
  · exact h.readString_cut hrest

theorem Quotes.readLetter_cut {content : List Char} (h : Quotes text content)
    (hcut : IsCut front text) : Json.readLetter front = .error .cutShort := by
  rw [Json.readLetter, h.readQuoted_cut hcut]

theorem Codec.cuts_text : Codec.text.Cuts := by
  refine .of_breaks ?_
  intro text content (h : Quotes text content.toList) front hcut
  simp only [Codec.read, h.readQuoted_cut hcut, Except.map]

theorem Codec.cuts_letter : Codec.letter.Cuts := by
  refine .of_breaks ?_
  intro text ch (h : Quotes text [ch]) front hcut
  exact h.readLetter_cut hcut

theorem Codec.cuts_letterOrNull : Codec.letterOrNull.Cuts := by
  refine .of_breaks ?_
  intro text value hdenotes front hcut
  cases value with
  | none =>
    obtain rfl : text = ['n', 'u', 'l', 'l'] := hdenotes
    rcases isCut_cons hcut with rfl | ⟨rest, rfl, hrest⟩
    · rfl
    · exact congrArg (Except.map fun rest => (none, rest)) (readWord_cut hrest)
  | some ch =>
    have hquotes : Quotes text [ch] := hdenotes
    have hread := congrArg (Except.map fun x => (some x.1, x.2)) (hquotes.readLetter_cut hcut)
    obtain ⟨inner, rfl, -⟩ := hquotes.readString
    rcases isCut_cons hcut with rfl | ⟨rest, rfl, hrest⟩
    · rfl
    · exact hread

/-- An object with a `null` under the name of a variant, cut behind the name. -/
theorem IsTail.readNull_cut {after : List Char} (htail : IsTail ['n', 'u', 'l', 'l'] tail)
    (hafter : Blanks after) (hcut : IsCut front (tail ++ (after ++ ['\x7d']))) (value : α) :
    (do
      let rest ← readMark ':' front
      let rest ← readVariant.readNull (skipBlanks rest)
      let rest ← readMark '\x7d' rest
      return (value, rest)) = .error .cutShort := by
  obtain ⟨before, between, hbefore, hbetween, rfl⟩ := htail
  rw [List.append_assoc, List.cons_append, List.append_assoc] at hcut
  rcases isCut_blanks_append_cons hbefore hcut with hfront | ⟨rest, rfl, hrest⟩
  · rw [readMark_blanks hfront, error_bind]
  rw [readMark_append hbefore rfl, ok_bind]
  rcases isCut_blanks_append_cons hbetween hrest with hblanks | ⟨word, rfl, hword⟩
  · rw [skipBlanks_blanks hblanks]
    rfl
  rw [skipBlanks_append_cons hbetween rfl, readVariant.readNull]
  rcases isCut_append hword with hshort | ⟨last, rfl, hlast⟩
  · rw [readWord_cut hshort, error_bind]
  · rw [readWord_append, ok_bind, readMark_blanks (blanks_of_isCut hafter hlast), error_bind]

theorem Codec.cuts_variant {values : List α} {name : α → String}
    (h : (Codec.variant values name).Lawful) : (Codec.variant values name).Cuts := by
  refine .of_breaks ?_
  rintro text value (hquotes | ⟨quoted, tail, body, hquotes, htail, hframe, rfl⟩) front hcut
  · obtain ⟨inner, rfl, -⟩ := hquotes.readString
    rcases isCut_cons hcut with rfl | ⟨rest, rfl, hrest⟩
    · rfl
    · have hskip : skipBlanks ('"' :: rest) = '"' :: rest := rfl
      simp only [Codec.read, readVariant, hskip, if_true, hquotes.readString_cut hrest]
  · obtain ⟨before, after, hbefore, hafter, rfl⟩ := hframe.singleton
    rcases isCut_cons hcut with rfl | ⟨rest, rfl, hrest⟩
    · rfl
    have hskip : skipBlanks ('\x7b' :: rest) = '\x7b' :: rest := rfl
    have hbrace : ('\x7b' : Char) ≠ '"' := by decide
    rw [List.append_assoc] at hrest
    rcases hquotes.readKey_cut hbefore hrest with hshort | ⟨later, hkey, hlater⟩
    · simp only [Codec.read, readVariant, hskip, if_neg hbrace, if_true, hshort, error_bind]
    · simp only [Codec.read, readVariant, hskip, if_neg hbrace, if_true, hkey, ok_bind, h value]
      exact htail.readNull_cut hafter hlater value

theorem Codec.cuts_via {codec : Codec α} {decoded : α → β} {encoded : β → α}
    {inv : ∀ b, decoded (encoded b) = b} (h : codec.Cuts) :
    (Codec.via codec decoded encoded inv).Cuts where
  starves := by
    intro text value hdenotes front hcut
    rcases h.starves text (encoded value) hdenotes front hcut with hshort | ⟨other, hother⟩
    · left
      simp only [Codec.read, hshort, Except.map]
    · right
      exact ⟨decoded other, by simp only [Codec.read, hother, Except.map]⟩
  breaks := by
    intro hclosed text value hdenotes front hcut
    simp only [Codec.read, h.breaks hclosed text (encoded value) hdenotes front hcut, Except.map]

/-! ## Lists -/

theorem Codec.cuts_list {item : Codec α} (hreads : item.Reads NoUnknown) (h : item.Cuts) :
    (Codec.list item).Cuts := by
  refine .of_breaks ?_
  rintro text values ⟨pieces, body, hitems, hframe, rfl⟩ front hcut
  rcases isCut_cons hcut with rfl | ⟨rest, rfl, hrest⟩
  · rfl
  · have hpieces := hitems.imp fun piece value hdenotes =>
      And.intro (hreads piece value hdenotes).1
        (And.intro (hreads piece value hdenotes).2 (h.starves piece value hdenotes))
    exact readItems_cut hframe hpieces rfl hrest _

/-! ## Tagged values -/

/-- The text behind a key, cut: the colon is missing, or the value behind it starves. -/
theorem IsTail.read_cut {codec : Codec α} (htail : IsTail piece tail)
    (h : Starves codec.read piece) (hcut : IsCut front tail) :
    readMark ':' front = .error .cutShort ∨
      ∃ text, readMark ':' front = .ok text ∧
        (codec.read text = .error .cutShort ∨ ∃ other, codec.read text = .ok (other, [])) := by
  obtain ⟨before, after, hbefore, hafter, rfl⟩ := htail
  rcases isCut_blanks_append_cons hbefore hcut with hfront | ⟨rest, rfl, hrest⟩
  · exact Or.inl (readMark_blanks hfront ':')
  · refine Or.inr ⟨rest, readMark_append hbefore rfl rest, ?_⟩
    rcases isCut_append hrest with hblanks | ⟨last, rfl, hlast⟩
    · left
      have hskip := codec.read_blanks (hafter.of_isCut hblanks) []
      rw [List.append_nil] at hskip
      rw [hskip, codec.read_nil]
    · rw [codec.read_blanks hafter]
      exact h last hlast

/-- A tagged value behind its tag, cut: a mark is missing, or the value starves. -/
theorem IsTail.readTagged_cut {γ : Type} {codec : Codec α} {value : α} {after : List Char}
    (tagged : α → γ) (htail : IsTail piece tail) (hread : ReadAs codec.read piece value)
    (h : Starves codec.read piece) (hafter : Blanks after)
    (hcut : IsCut front (tail ++ (after ++ ['\x7d']))) :
    (do
      let rest ← readMark ':' front
      let (value, rest) ← codec.read rest
      let rest ← readMark '\x7d' rest
      return (tagged value, rest)) = .error .cutShort := by
  rcases isCut_append hcut with htext | ⟨last, rfl, hlast⟩
  · rcases htail.read_cut h htext with hshort | ⟨text, hcolon, hshort | ⟨other, hother⟩⟩
    · rw [hshort, error_bind]
    · rw [hcolon, ok_bind, hshort, error_bind]
    · rw [hcolon, ok_bind, hother]
      rfl
  · have hends : Ends (after ++ ['\x7d']) := Ends.blanks_append hafter (ends_cons (by decide) [])
    obtain ⟨text, hcolon, hvalue⟩ := htail.read hread (hlast.ends hends)
    rw [hcolon, ok_bind, hvalue]
    show (readMark '\x7d' last >>= _) = _
    rw [readMark_blanks (blanks_of_isCut hafter hlast), error_bind]

theorem Codec.cuts_tagged {leftTag rightTag : String} {left : Codec α} {right : Codec β}
    (ne : leftTag ≠ rightTag) (hleft : left.Reads NoUnknown) (hright : right.Reads NoUnknown)
    (hleftCuts : left.Cuts) (hrightCuts : right.Cuts) :
    (Codec.tagged leftTag left rightTag right ne).Cuts := by
  refine .of_breaks ?_
  rintro text value ⟨quoted, tag, piece, tail, body, hquotes, htail, hframe, rfl, hvalue⟩ front hcut
  obtain ⟨before, after, hbefore, hafter, rfl⟩ := hframe.singleton
  rcases isCut_cons hcut with rfl | ⟨rest, rfl, hrest⟩
  · rfl
  have hskip : skipBlanks ('\x7b' :: rest) = '\x7b' :: rest := rfl
  rw [List.append_assoc] at hrest
  rcases hquotes.readKey_cut hbefore hrest with hshort | ⟨later, hkey, hlater⟩
  · simp only [Codec.read, hskip, hshort, error_bind]
    rfl
  cases value with
  | inl value =>
    obtain ⟨rfl, hvalue⟩ := hvalue
    have hbreaks := htail.readTagged_cut (Sum.inl (β := β)) (hleft piece value hvalue).2
      (hleftCuts.starves piece value hvalue) hafter hlater
    simp only [Codec.read, hskip, hkey, ok_bind, if_true]
    exact hbreaks
  | inr value =>
    obtain ⟨rfl, hvalue⟩ := hvalue
    have hne : rightTag.toList ≠ leftTag.toList := fun h => ne (String.toList_injective h).symm
    have hbreaks := htail.readTagged_cut (Sum.inr (α := α)) (hright piece value hvalue).2
      (hrightCuts.starves piece value hvalue) hafter hlater
    simp only [Codec.read, hskip, hkey, ok_bind, if_neg hne, if_true]
    exact hbreaks

/-! ## Records as arrays -/

/-- The items that give the fields, cut: the text ends too early, or only the bracket is missing. -/
def Fields.CutsItems (fields : Fields ρ) : Prop :=
  ∀ pieces value, fields.DenotesItems NoUnknown pieces value →
    ∀ first text front, Frame ']' first pieces text → IsCut front text →
      fields.readArray first front = .error .cutShort ∨
        ∃ other blanks, Blanks blanks ∧ fields.readArray first front = .ok (other, blanks)

theorem Fields.readArray_false_nil (fields : Fields ρ) :
    fields.readArray false [] = .error .cutShort ∨
      ∃ other blanks, Blanks blanks ∧ fields.readArray false [] = .ok (other, blanks) := by
  cases fields with
  | nil => exact Or.inr ⟨(), [], blanks_nil, rfl⟩
  | cons name codec missing rest => exact Or.inl rfl

theorem Fields.cutsItems_nil : Fields.nil.CutsItems := by
  rintro pieces value rfl first text front hframe hcut
  exact Or.inr ⟨(), front, hframe.blanks_of_isCut hcut, rfl⟩

theorem Fields.cutsItems_cons {name : String} {codec : Codec α} {missing : Option α}
    {fields : Fields ρ} (hreads : codec.Reads NoUnknown) (hcodec : codec.Cuts)
    (hfields : fields.CutsItems) : (Fields.cons name codec missing fields).CutsItems := by
  rintro pieces ⟨value, values⟩ ⟨piece, others, rfl, hvalue, hvalues⟩ first text front hframe hcut
  obtain ⟨hstarts, hread⟩ := hreads piece value hvalue
  have hstarves := hcodec.starves piece value hvalue
  obtain ⟨later, hlater, hshort | ⟨rest, hnext, hrest⟩⟩ := hframe.readNextItem_cut hstarts hcut
  · left
    simp only [Fields.readArray, hshort]
  simp only [Fields.readArray, hnext]
  rcases read_cut hread hstarves (hlater.ends_self (Or.inl rfl)) hrest with
    hshort | ⟨other, hother⟩ | ⟨last, hlast, hfirst⟩
  · exact Or.inl (by rw [hshort, error_bind])
  · rw [hother, ok_bind]
    rcases fields.readArray_false_nil with hshort | ⟨more, blanks, hblanks, hmore⟩
    · exact Or.inl (by simp only [hshort, error_bind])
    · exact Or.inr ⟨(other, more), blanks, hblanks, by simp only [hmore, ok_bind]; rfl⟩
  · rw [hfirst, ok_bind]
    rcases hfields others values hvalues false later last hlater hlast with
      hshort | ⟨more, blanks, hblanks, hmore⟩
    · exact Or.inl (by simp only [hshort, error_bind])
    · exact Or.inr ⟨(value, more), blanks, hblanks, by simp only [hmore, ok_bind]; rfl⟩

/-! ## Records as objects -/

/-- Each member that gives a field starves where the text behind its key is cut. -/
def Fields.CutsMembers (fields : Fields ρ) : Prop :=
  ∀ members value, fields.DenotesMembers NoUnknown members value →
    ∀ named ∈ members, MemberStarves fields.readMember named

theorem Fields.cutsMembers_nil : Fields.nil.CutsMembers := by
  intro members value hdenotes named hmem
  obtain ⟨piece, -, hfalse⟩ := hdenotes named hmem
  exact hfalse.elim

section Field

variable {name : String} {codec : Codec α} {missing : Option α} {fields : Fields ρ}

/-- A member with another name starves as it does without the field. -/
theorem MemberStarves.of_ne {named : List Char × List Char} (hkey : named.1 ≠ name.toList)
    (h : MemberStarves fields.readMember named) :
    MemberStarves (Fields.cons name codec missing fields).readMember named := by
  rintro ⟨slot, slots⟩ ⟨slot', slots'⟩ hread front hcut
  have hothers : ReadAs (fields.readMember named.1 slots) named.2 slots' := by
    intro rest hends
    have hwhole := hread rest hends
    rw [Fields.readMember_of_ne hkey] at hwhole
    cases hinner : fields.readMember named.1 slots (named.2 ++ rest) with
    | error flaw =>
      rw [hinner] at hwhole
      cases hwhole
    | ok result =>
      rw [hinner] at hwhole
      cases hwhole
      rfl
  rw [Fields.readMember_of_ne hkey]
  rcases h slots slots' hothers front hcut with hshort | ⟨other, hother⟩
  · exact Or.inl (by rw [hshort]; rfl)
  · exact Or.inr ⟨(slot, other), by rw [hother]; rfl⟩

/-- The member of a field starves if the value of the field does. -/
theorem memberStarves_self (htail : IsTail piece tail) (h : Starves codec.read piece) :
    MemberStarves (Fields.cons name codec missing fields).readMember (name.toList, tail) := by
  rintro ⟨slot, slots⟩ slots' hread front hcut
  have hempty : slot.isSome = false := by
    by_contra hfull
    have hwhole := hread [] ends_nil
    rw [Fields.readMember_cons, if_pos rfl, if_pos (Bool.of_not_eq_false hfull)] at hwhole
    cases hwhole
  rw [Fields.readMember_cons, if_pos rfl, hempty]
  simp only [Bool.false_eq_true, if_false]
  rcases htail.read_cut h hcut with hshort | ⟨text, hcolon, hshort | ⟨other, hother⟩⟩
  · exact Or.inl (by rw [hshort, error_bind])
  · exact Or.inl (by rw [hcolon, ok_bind, hshort, error_bind])
  · exact Or.inr ⟨(some other, slots), by rw [hcolon, ok_bind, hother]; rfl⟩

theorem Fields.cutsMembers_cons (hcodec : codec.Cuts) (hfields : fields.CutsMembers) :
    (Fields.cons name codec missing fields).CutsMembers := by
  rintro members ⟨value, values⟩
    (⟨piece, tail, front, back, rfl, htail, hvalue, hne, hvalues⟩ | ⟨hmissing, hne, hvalues⟩)
    named hmem
  · by_cases hother : named ∈ front ++ back
    · exact .of_ne (hne named hother) (hfields _ values hvalues named hother)
    · have hown : named = (name.toList, tail) := by
        rw [List.mem_append, List.mem_cons] at hmem
        rw [List.mem_append] at hother
        tauto
      rw [hown]
      exact memberStarves_self htail (hcodec.starves piece value hvalue)
  · exact .of_ne (hne named hmem) (hfields members values hvalues named hmem)

end Field

/-- A record that is cut lacks its closing bracket at least. The check for missing fields comes after
that bracket. -/
theorem Codec.cuts_record {fields : Fields ρ} (hreads : fields.ReadsMembers NoUnknown)
    (hitems : fields.CutsItems) (hmembers : fields.CutsMembers) : (Codec.record fields).Cuts := by
  refine .of_breaks ?_
  rintro text value (⟨pieces, body, hvalue, hframe, rfl⟩ |
    ⟨pieces, members, body, hvalue, hnamed, hframe, rfl⟩) front hcut
  · rcases isCut_cons hcut with rfl | ⟨rest, rfl, hrest⟩
    · rfl
    have hskip : skipBlanks ('[' :: rest) = '[' :: rest := rfl
    rcases hitems pieces value hvalue true body rest hframe hrest with
      hshort | ⟨other, blanks, hblanks, hother⟩
    · simp only [Codec.read, hskip, hshort, error_bind]
    · simp only [Codec.read, hskip, hother, ok_bind, readMark_blanks hblanks, error_bind]
  · rcases isCut_cons hcut with rfl | ⟨rest, rfl, hrest⟩
    · rfl
    have hskip : skipBlanks ('\x7b' :: rest) = '\x7b' :: rest := rfl
    obtain ⟨slots, hfills, -⟩ := hreads members value hvalue
    have hshort := readMembers_cut hfills (hmembers members value hvalue) hnamed hframe hrest
      (rest.length + 1)
    simp only [Codec.read, hskip, hshort, error_bind]

/-! ## All codecs -/

mutual

/-- **Texts that denote values do not survive a cut.** -/
theorem Codec.cuts : {α : Type} → (codec : Codec α) → codec.Lawful → codec.Cuts
  | _, .flag, _ => Codec.cuts_flag
  | _, .count, _ => Codec.cuts_count
  | _, .text, _ => Codec.cuts_text
  | _, .letter, _ => Codec.cuts_letter
  | _, .letterOrNull, _ => Codec.cuts_letterOrNull
  | _, .list item, h => Codec.cuts_list (item.reads skipped_noUnknown h) (item.cuts h)
  | _, .variant _ _, h => Codec.cuts_variant h
  | _, .tagged _ left _ right ne, h =>
    Codec.cuts_tagged ne (left.reads skipped_noUnknown h.1) (right.reads skipped_noUnknown h.2)
      (left.cuts h.1) (right.cuts h.2)
  | _, .record fields, h => by
    obtain ⟨hitems, hmembers⟩ := fields.cuts h
    exact Codec.cuts_record (fields.reads skipped_noUnknown h).2 hitems hmembers
  | _, .via codec _ _ _, h => Codec.cuts_via (codec.cuts h)

/-- The fields of a record do not survive a cut of the items or of the members that give them. -/
theorem Fields.cuts : {ρ : Type} → (fields : Fields ρ) → fields.Lawful →
    fields.CutsItems ∧ fields.CutsMembers
  | _, .nil, _ => ⟨Fields.cutsItems_nil, Fields.cutsMembers_nil⟩
  | _, .cons _ codec _ rest, h => by
    have hcodec := codec.cuts h.1
    obtain ⟨hitems, hmembers⟩ := rest.cuts h.2.2
    exact ⟨Fields.cutsItems_cons (codec.reads skipped_noUnknown h.1) hcodec hitems,
      Fields.cutsMembers_cons hcodec hmembers⟩

end

/-- **A text that denotes a value and lacks its end ends too early,** unless it is a number. -/
theorem Codec.decode_of_isCut {codec : Codec α} (hlawful : codec.Lawful)
    (hclosed : codec.isOpen = false) {value : α} (h : codec.Denotes NoUnknown text value)
    (hcut : IsCut front text) : codec.decode front = .error .cutShort := by
  rw [Codec.decode, (codec.cuts hlawful).breaks hclosed text value h front hcut]

/-! ## Exported forms -/

/-- Whatever is missing at the end of the compact text of a value, or of its pretty text, the flaw is
that the text ends too early. -/
def Codec.DetectsCuts (codec : Codec α) : Prop :=
  ∀ value front, IsCut front (codec.compact value) ∨ IsCut front (codec.pretty value) →
    ∃ flaw, codec.decode front = .error flaw ∧ flaw.category = "eof"

theorem isCut_dropLast (h : text ≠ []) : IsCut text.dropLast text :=
  ⟨[text.getLast h], List.cons_ne_nil _ _, (List.dropLast_concat_getLast h).symm⟩

theorem Codec.detectsCuts {codec : Codec α} (hlawful : codec.Lawful)
    (hclosed : codec.isOpen = false) : codec.DetectsCuts := by
  have hdecode {layout : Layout} (hlayout : layout.IsBlank) {value : α} {front : List Char}
      (hcut : IsCut front (codec.write layout 0 value)) :
      ∃ flaw, codec.decode front = .error flaw ∧ flaw.category = "eof" :=
    ⟨.cutShort, Codec.decode_of_isCut hlawful hclosed
      (codec.denotes_write hlayout hlawful 0 value) hcut, rfl⟩
  rintro value front (hcut | hcut)
  · exact hdecode Layout.isBlank_compact hcut
  · exact hdecode Layout.isBlank_pretty hcut

/-- **A truncated export is always noticed.** Whatever is missing at the end of the text of a table, a
path, a step, a transition, a label or a configuration, be it all of it, the text is refused, and as
one that ends too early. -/
theorem truncation_detected (σ : Type) [StateSet σ] [DistinctStates σ] :
    (table σ).DetectsCuts ∧ (path σ).DetectsCuts ∧ (step σ).DetectsCuts ∧
      (transition σ).DetectsCuts ∧ label.DetectsCuts ∧ sampleConfig.DetectsCuts ∧
      renderConfig.DetectsCuts :=
  ⟨Codec.detectsCuts (lawful_table σ) rfl, Codec.detectsCuts (lawful_path σ) rfl,
    Codec.detectsCuts (lawful_step σ) rfl, Codec.detectsCuts (lawful_transition σ) rfl,
    Codec.detectsCuts lawful_label rfl, Codec.detectsCuts lawful_sampleConfig rfl,
    Codec.detectsCuts lawful_renderConfig rfl⟩

/-- Without its last character, the text of a table that nobody checked is refused as one that ends
too early, and so is the text of a configuration after its last number. -/
theorem truncation_detected_amount :
    DistinctStates Amount.State ∧
      (∃ flaw, (table Amount.State).decode ((table Amount.State).pretty escapedTable).dropLast
        = .error flaw ∧ flaw.category = "eof") ∧
      ∃ flaw, sampleConfig.decode (sampleConfig.compact ⟨0, 1, 18446744073709551615⟩).dropLast
        = .error flaw ∧ flaw.category = "eof" := by
  obtain ⟨htable, -, -, -, -, hsampleConfig, -⟩ := truncation_detected Amount.State
  exact ⟨inferInstance, htable escapedTable _ (Or.inr (isCut_dropLast (List.cons_ne_nil _ _))),
    hsampleConfig _ _ (Or.inl (isCut_dropLast (List.cons_ne_nil _ _)))⟩

end AmountWalk.Json
