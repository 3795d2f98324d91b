import AmountWalk.Proofs.Json.Denotes
import Mathlib.Data.List.Forall2

/-!
# Texts are read as what they denote

A codec whose names tell values apart reads every text that denotes a value as that value, and
leaves exactly what stands behind the text. There is one lemma for each form, which asks the same of
the parts of the form only; `Codec.reads` puts them together along the codec.

Records are the one form with a choice. In an array the fields come in order. In an object they are
put into slots as they come; a field's slot is filled by its own member and by no other, so the
order of the members does not matter.
-/

namespace AmountWalk.Json

/-! ## Names -/

mutual

/-- The name of a variant stands for it, and no two fields of a record have one name. -/
def Codec.Lawful : {α : Type} → Codec α → Prop
  | _, .flag => True
  | _, .count => True
  | _, .text => True
  | _, .letter => True
  | _, .letterOrNull => True
  | _, .list item => item.Lawful
  | _, .variant values name =>
    ∀ value, readVariant.find values name (name value).toList = some value
  | _, .tagged _ left _ right _ => left.Lawful ∧ right.Lawful
  | _, .record fields => fields.Lawful
  | _, .via codec _ _ _ => codec.Lawful

/-- No two fields have one name, and what names there are in their codecs is lawful too. -/
def Fields.Lawful : {ρ : Type} → Fields ρ → Prop
  | _, .nil => True
  | _, .cons name codec _ rest => codec.Lawful ∧ name ∉ rest.names ∧ rest.Lawful

end

section Reading

variable {unknown : List Char → Prop} {α β ρ : Type}

/-- A step that succeeds hands its value on. -/
theorem ok_bind (value : α) (next : α → Except Flaw β) :
    ((Except.ok value : Except Flaw α) >>= next) = next value := rfl

/-- Every text that denotes a value is read as that value. -/
def Codec.Reads (unknown : List Char → Prop) (codec : Codec α) : Prop :=
  ∀ text value, codec.Denotes unknown text value → StartsItem text ∧ ReadAs codec.read text value

variable {piece tail : List Char}

/-! ## Plain values -/

theorem Quotes.startsItem {text content : List Char} (h : Quotes text content) : StartsItem text := by
  obtain ⟨inner, rfl, -⟩ := h.readString
  exact ⟨'"', inner, rfl, rfl, by decide⟩

/-- A string is read from its opening quote on. -/
theorem Quotes.readQuoted {text content : List Char} (h : Quotes text content) (rest : List Char) :
    readQuoted (text ++ rest) = .ok (content, rest) := by
  obtain ⟨inner, rfl, hread⟩ := h.readString
  exact hread rest

theorem Quotes.readLetter {text : List Char} {ch : Char} (h : Quotes text [ch]) (rest : List Char) :
    readLetter (text ++ rest) = .ok (ch, rest) := by
  simp only [Json.readLetter, h.readQuoted]

theorem Codec.reads_flag : Codec.flag.Reads unknown := by
  rintro text value rfl
  cases value with
  | false => exact ⟨⟨'f', _, rfl, rfl, by decide⟩, fun rest _ => rfl⟩
  | true => exact ⟨⟨'t', _, rfl, rfl, by decide⟩, fun rest _ => rfl⟩

theorem Codec.reads_count : Codec.count.Reads unknown := by
  rintro text n rfl
  obtain ⟨ch, digits, heq, -⟩ := exists_writeNat_eq_cons n.toNat
  have hdigit : isDigit ch = true := isDigit_of_mem_writeNat ch (by rw [heq]; exact .head _)
  have hblank : isBlank ch = false := isBlank_of_isDigit hdigit
  refine ⟨⟨ch, digits, heq, hblank, ?_⟩, fun rest hends => ?_⟩
  · rintro rfl
    exact absurd hdigit (by decide)
  · have hread := readNumeral_writeNat n hends
    rw [heq, List.cons_append] at hread ⊢
    simp only [Codec.read, skipBlanks_cons hblank, if_pos hdigit, hread]
    rw [← heq, count?_writeNat]

theorem Codec.reads_text : Codec.text.Reads unknown := by
  intro text content (h : Quotes text content.toList)
  refine ⟨h.startsItem, fun rest _ => ?_⟩
  simp only [Codec.read, h.readQuoted, Except.map, String.ofList_toList]

theorem Codec.reads_letter : Codec.letter.Reads unknown := by
  intro text ch (h : Quotes text [ch])
  exact ⟨h.startsItem, fun rest _ => h.readLetter rest⟩

theorem Codec.reads_letterOrNull : Codec.letterOrNull.Reads unknown := by
  intro text value h
  cases value with
  | none =>
    obtain rfl : text = ['n', 'u', 'l', 'l'] := h
    exact ⟨⟨'n', _, rfl, rfl, by decide⟩, fun rest _ => rfl⟩
  | some ch =>
    have hquotes : Quotes text [ch] := h
    refine ⟨hquotes.startsItem, fun rest _ => ?_⟩
    have hread := hquotes.readLetter rest
    obtain ⟨inner, rfl, -⟩ := hquotes.readString
    have hskip : skipBlanks ('"' :: inner ++ rest) = '"' :: (inner ++ rest) := rfl
    simp only [Codec.read, hskip]
    exact congrArg (Except.map fun x => (some x.1, x.2)) hread

/-- A variant is read as its name, and as the only key of an object in front of a `null`. -/
theorem Codec.reads_variant {values : List α} {name : α → String}
    (h : (Codec.variant values name).Lawful) : (Codec.variant values name).Reads unknown := by
  rintro text value (hquotes | ⟨quoted, tail, body, hquotes, htail, hframe, rfl⟩)
  · refine ⟨hquotes.startsItem, fun rest _ => ?_⟩
    obtain ⟨inner, rfl, hread⟩ := hquotes.readString
    have hskip : skipBlanks ('"' :: inner ++ rest) = '"' :: (inner ++ rest) := rfl
    simp only [Codec.read, readVariant, hskip, if_true, hread rest, h value]
  · obtain ⟨first, last, hfirst, hlast, rfl⟩ := hframe.singleton
    obtain ⟨before, after, hbefore, hafter, rfl⟩ := htail
    refine ⟨⟨'\x7b', _, rfl, rfl, by decide⟩, fun rest _ => ?_⟩
    have hbrace : ('\x7b' : Char) ≠ '"' := by decide
    have hnull : readVariant.readNull (skipBlanks (after
        ++ 'n' :: 'u' :: 'l' :: 'l' :: (last ++ '\x7d' :: rest))) = .ok (last ++ '\x7d' :: rest) := by
      rw [skipBlanks_append_cons hafter rfl]
      rfl
    have hcolon (text : List Char) : readMark ':' (before ++ ':' :: (after ++ ['n', 'u', 'l', 'l']) ++ text)
        = .ok (after ++ 'n' :: 'u' :: 'l' :: 'l' :: text) := by
      rw [List.append_assoc, List.cons_append, List.append_assoc, readMark_append hbefore rfl]
      rfl
    have hclose : readMark '\x7d' (last ++ '\x7d' :: rest) = .ok rest := readMark_append hlast rfl rest
    simp only [Codec.read, readVariant, skipBlanks_object, if_neg hbrace, if_true, hquotes.readKey hfirst,
      ok_bind, h value, hcolon, hnull, hclose]
    rfl

/-- A value is read when the value that is written in its place is. -/
theorem Codec.reads_via {codec : Codec α} {decoded : α → β} {encoded : β → α}
    {inv : ∀ b, decoded (encoded b) = b} (h : codec.Reads unknown) :
    (Codec.via codec decoded encoded inv).Reads unknown := by
  intro text value hdenotes
  obtain ⟨hstarts, hread⟩ := h text (encoded value) hdenotes
  refine ⟨hstarts, fun rest hends => ?_⟩
  simp only [Codec.read, hread rest hends, Except.map, inv]

/-! ## Lists -/

/-- **A list is read when its items are.** -/
theorem Codec.reads_list {item : Codec α} (h : item.Reads unknown) :
    (Codec.list item).Reads unknown := by
  rintro text values ⟨pieces, body, hitems, hframe, rfl⟩
  refine ⟨⟨'[', body, rfl, rfl, by decide⟩, fun rest _ => ?_⟩
  exact readItems_frame hframe (hitems.imp h) rfl (hframe.length_lt_fuel rest) rest

/-! ## Tagged values -/

/-- Behind its key, a value is read after the colon. -/
theorem IsTail.read {codec : Codec α} {value : α} {rest : List Char} (htail : IsTail piece tail)
    (h : ReadAs codec.read piece value) (hends : Ends rest) :
    ∃ text, readMark ':' (tail ++ rest) = .ok text ∧ codec.read text = .ok (value, rest) := by
  obtain ⟨before, after, hbefore, hafter, rfl⟩ := htail
  refine ⟨after ++ (piece ++ rest), ?_, ?_⟩
  · rw [List.append_assoc, List.cons_append, List.append_assoc, readMark_append hbefore rfl]
  · rw [codec.read_blanks hafter, h rest hends]

/-- A tagged value is read when the values of both types are. -/
theorem Codec.reads_tagged {leftTag rightTag : String} {left : Codec α} {right : Codec β}
    (ne : leftTag ≠ rightTag) (hleft : left.Reads unknown) (hright : right.Reads unknown) :
    (Codec.tagged leftTag left rightTag right ne).Reads unknown := by
  rintro text value ⟨quoted, tag, piece, tail, body, hquotes, htail, hframe, rfl, hvalue⟩
  obtain ⟨before, after, hbefore, hafter, rfl⟩ := hframe.singleton
  refine ⟨⟨'\x7b', _, rfl, rfl, by decide⟩, fun rest hends => ?_⟩
  have hclose : readMark '\x7d' (after ++ '\x7d' :: rest) = .ok rest :=
    readMark_append hafter rfl rest
  have hrest : Ends (after ++ '\x7d' :: rest) := Ends.blanks_append hafter (ends_cons rfl rest)
  cases value with
  | inl value =>
    obtain ⟨rfl, hvalue⟩ := hvalue
    obtain ⟨later, hcolon, hread⟩ := htail.read (hleft piece value hvalue).2 hrest
    simp only [Codec.read, skipBlanks_object, hquotes.readKey hbefore, ok_bind, hcolon, hread, hclose, if_true]
    rfl
  | inr value =>
    obtain ⟨rfl, hvalue⟩ := hvalue
    obtain ⟨later, hcolon, hread⟩ := htail.read (hright piece value hvalue).2 hrest
    have hne : rightTag.toList ≠ leftTag.toList := fun h => ne (String.toList_injective h).symm
    simp only [Codec.read, skipBlanks_object, hquotes.readKey hbefore, ok_bind, if_neg hne, hcolon, hread,
      hclose, if_true]
    rfl

/-! ## Records as arrays -/

/-- The items that give the fields are read as the fields, up to the closing bracket. -/
def Fields.ReadsItems (unknown : List Char → Prop) (fields : Fields ρ) : Prop :=
  ∀ pieces value, fields.DenotesItems unknown pieces value →
    ∀ first text rest, Frame ']' first pieces text →
      ∃ blanks, Blanks blanks ∧
        fields.readArray first (text ++ rest) = .ok (value, blanks ++ ']' :: rest)

theorem Fields.readsItems_nil : Fields.nil.ReadsItems unknown := by
  rintro pieces value rfl first text rest hframe
  cases hframe with
  | close hblanks => exact ⟨_, hblanks, by rw [List.append_assoc]; rfl⟩

theorem Fields.readsItems_cons {name : String} {codec : Codec α} {missing : Option α}
    {fields : Fields ρ} (hcodec : codec.Reads unknown) (hfields : fields.ReadsItems unknown) :
    (Fields.cons name codec missing fields).ReadsItems unknown := by
  rintro pieces ⟨value, values⟩ ⟨piece, others, rfl, hvalue, hvalues⟩ first text rest hframe
  obtain ⟨hstarts, hread⟩ := hcodec piece value hvalue
  obtain ⟨later, hlater, hnext⟩ := hframe.readNextItem_cons hstarts
  obtain ⟨blanks, hblanks, hothers⟩ := hfields others values hvalues false later rest hlater
  refine ⟨blanks, hblanks, ?_⟩
  have hvalue := hread (later ++ rest) (hlater.ends (Or.inl rfl) rest)
  simp only [Fields.readArray, hnext, hvalue, ok_bind, hothers]
  rfl

/-! ## Records as objects -/

/-- What stands under a key that names no field is skipped. -/
def Skipped (unknown : List Char → Prop) : Prop :=
  ∀ piece, unknown piece → ∀ blanks rest, Blanks blanks → Ends rest →
    skipValue (blanks ++ (piece ++ rest)) = .ok rest

/-- The members that give the fields fill the slots from which the record is assembled. -/
def Fields.ReadsMembers (unknown : List Char → Prop) (fields : Fields ρ) : Prop :=
  ∀ members value, fields.DenotesMembers unknown members value →
    ∃ slots, Fills fields.readMember fields.emptySlots members slots ∧
      fields.assemble slots = .ok value

/-- A key that names no field has its value skipped. -/
theorem Fields.readMember_nil (key : List Char) (slots : Fields.nil.Slots) (text : List Char) :
    Fields.nil.readMember key slots text = do
      let text ← readMark ':' text
      let text ← skipValue text
      return ((), text) := rfl

theorem Fields.readsMembers_nil (hskipped : Skipped unknown) :
    Fields.nil.ReadsMembers unknown := by
  intro members value hdenotes
  refine ⟨(), ?_, rfl⟩
  induction members with
  | nil => exact .nil
  | cons member members ih =>
    obtain ⟨piece, ⟨before, after, hbefore, hafter, htail⟩, hpiece⟩ := hdenotes _ (.head _)
    refine .cons (fun rest hends => ?_) (ih fun member hmem => hdenotes member (.tail _ hmem))
    rw [htail, List.append_assoc, List.cons_append, List.append_assoc, Fields.readMember_nil,
      readMark_append hbefore rfl, ok_bind, hskipped piece hpiece after rest hafter hends]
    rfl

/-- A sequence of members is read one part after the other. -/
theorem Fills.append {ς : Type} {member : List Char → ς → Reader ς} {slots slots' slots'' : ς}
    {front back : List (List Char × List Char)} (h : Fills member slots front slots')
    (h' : Fills member slots' back slots'') : Fills member slots (front ++ back) slots'' := by
  induction h with
  | nil => exact h'
  | cons hmember _ ih => exact .cons hmember (ih h')

theorem Fills.exists_of_append {ς : Type} {member : List Char → ς → Reader ς} {slots slots'' : ς}
    {front back : List (List Char × List Char)} (h : Fills member slots (front ++ back) slots'') :
    ∃ slots', Fills member slots front slots' ∧ Fills member slots' back slots'' := by
  induction front generalizing slots with
  | nil => exact ⟨slots, .nil, h⟩
  | cons member front ih =>
    cases h with
    | cons hmember hrest =>
      obtain ⟨slots', hfront, hback⟩ := ih hrest
      exact ⟨slots', .cons hmember hfront, hback⟩

section Field

variable {name : String} {codec : Codec α} {missing : Option α} {fields : Fields ρ}

/-- What a member does to the slot of the first field and to the other slots. -/
theorem Fields.readMember_cons (key : List Char) (slot : Option α) (slots : fields.Slots)
    (text : List Char) :
    (Fields.cons name codec missing fields).readMember key (slot, slots) text
      = if key = name.toList then
          if slot.isSome then .error .mismatched
          else do
            let text ← readMark ':' text
            let (value, text) ← codec.read text
            return ((some value, slots), text)
        else do
          let (others, text) ← fields.readMember key slots text
          return ((slot, others), text) := rfl

/-- A member with another name is one for the other slots. -/
theorem Fields.readMember_of_ne {key : List Char} (hkey : key ≠ name.toList) (slot : Option α)
    (slots : fields.Slots) (text : List Char) :
    (Fields.cons name codec missing fields).readMember key (slot, slots) text
      = (fields.readMember key slots text).map
          fun (others, text) => ((slot, others), text) := by
  rw [Fields.readMember_cons, if_neg hkey]
  cases fields.readMember key slots text <;> rfl

/-- A member with the name of a field is one for its slot only. -/
theorem Fields.readMember_of_eq {key : List Char} (hkey : key = name.toList) (slots : fields.Slots)
    (text : List Char) :
    (Fields.cons name codec missing fields).readMember key (none, slots) text
      = (readMark ':' text >>= codec.read).map fun (value, text) => ((some value, slots), text) := by
  rw [Fields.readMember_cons, if_pos hkey]
  cases hcolon : readMark ':' text with
  | error flaw => rfl
  | ok behind =>
    simp only [ok_bind]
    cases codec.read behind <;> rfl

/-- Members with other names leave the slot of a field alone. -/
theorem Fills.of_ne {members : List (List Char × List Char)} {slots slots' : fields.Slots}
    (slot : Option α) (h : Fills fields.readMember slots members slots')
    (hne : ∀ member ∈ members, member.1 ≠ name.toList) :
    Fills (Fields.cons name codec missing fields).readMember (slot, slots) members
      (slot, slots') := by
  induction h with
  | nil => exact .nil
  | cons hmember hrest ih =>
    refine .cons (fun rest hends => ?_) (ih fun member hmem => hne member (.tail _ hmem))
    have hkey := hne _ (.head _)
    simp only at hkey
    rw [Fields.readMember_of_ne hkey, hmember rest hends]
    rfl

/-- The member of a field fills its slot. -/
theorem readMember_self {value : α} (slots : fields.Slots) (htail : IsTail piece tail)
    (h : ReadAs codec.read piece value) :
    ReadAs ((Fields.cons name codec missing fields).readMember name.toList (none, slots)) tail
      (some value, slots) := by
  intro rest hends
  obtain ⟨text, hcolon, hread⟩ := htail.read h hends
  rw [Fields.readMember_of_eq rfl, hcolon, ok_bind, hread]
  rfl

/-- **The order of members does not matter.** A field's own member fills its slot, wherever it
stands, and the other members are read as without it. -/
theorem Fields.readsMembers_cons (hcodec : codec.Reads unknown)
    (hfields : fields.ReadsMembers unknown) :
    (Fields.cons name codec missing fields).ReadsMembers unknown := by
  rintro members ⟨value, values⟩
    (⟨piece, tail, front, back, rfl, htail, hvalue, hne, hvalues⟩ | ⟨hmissing, hne, hvalues⟩)
  · -- The other slots are filled as if the field's own member were not there.
    obtain ⟨slots, hfills, hassemble⟩ := hfields _ values hvalues
    obtain ⟨middle, hfront, hback⟩ := hfills.exists_of_append
    refine ⟨(some value, slots), ?_, ?_⟩
    · have hothers : Fills (Fields.cons name codec missing fields).readMember
          (none, fields.emptySlots) front (none, middle) :=
        hfront.of_ne none fun member hmem => hne member (List.mem_append_left _ hmem)
      have hown : ReadAs ((Fields.cons name codec missing fields).readMember name.toList
          (none, middle)) tail (some value, middle) :=
        readMember_self middle htail (hcodec piece value hvalue).2
      have hmore : Fills (Fields.cons name codec missing fields).readMember
          (some value, middle) back (some value, slots) :=
        hback.of_ne (some value) fun member hmem => hne member (List.mem_append_right _ hmem)
      exact hothers.append (.cons hown hmore)
    · simp [Fields.assemble, hassemble]
  · -- The field was left out, and its slot stays empty.
    obtain ⟨slots, hfills, hassemble⟩ := hfields _ values hvalues
    refine ⟨(none, slots), hfills.of_ne none hne, ?_⟩
    simp only at hmissing
    simp [Fields.assemble, hassemble, hmissing]

end Field

/-- **A record is read** from an array of its fields and from an object. -/
theorem Codec.reads_record {fields : Fields ρ} (hitems : fields.ReadsItems unknown)
    (hmembers : fields.ReadsMembers unknown) : (Codec.record fields).Reads unknown := by
  rintro text value
    (⟨pieces, body, hvalue, hframe, rfl⟩ | ⟨pieces, members, body, hvalue, hnamed, hframe, rfl⟩)
  · refine ⟨⟨'[', body, rfl, rfl, by decide⟩, fun rest _ => ?_⟩
    obtain ⟨blanks, hblanks, hread⟩ := hitems pieces value hvalue true body rest hframe
    have hclose : readMark ']' (blanks ++ ']' :: rest) = .ok rest :=
      readMark_append hblanks rfl rest
    have hskip : skipBlanks ('[' :: body ++ rest) = '[' :: (body ++ rest) := rfl
    simp only [Codec.read, hskip, hread, ok_bind, hclose]
    rfl
  · refine ⟨⟨'\x7b', body, rfl, rfl, by decide⟩, fun rest _ => ?_⟩
    obtain ⟨slots, hfills, hassemble⟩ := hmembers members value hvalue
    have hread := readMembers_frame hfills hnamed hframe (hframe.length_lt_fuel rest) rest
    have hskip : skipBlanks ('\x7b' :: body ++ rest) = '\x7b' :: (body ++ rest) := rfl
    simp only [Codec.read, hskip, hread, ok_bind, hassemble]
    rfl

/-! ## All codecs -/

mutual

/-- **Texts are read as what they denote.** -/
theorem Codec.reads (hskipped : Skipped unknown) : {α : Type} → (codec : Codec α) → codec.Lawful →
    codec.Reads unknown
  | _, .flag, _ => Codec.reads_flag
  | _, .count, _ => Codec.reads_count
  | _, .text, _ => Codec.reads_text
  | _, .letter, _ => Codec.reads_letter
  | _, .letterOrNull, _ => Codec.reads_letterOrNull
  | _, .list item, h => Codec.reads_list (item.reads hskipped h)
  | _, .variant _ _, h => Codec.reads_variant h
  | _, .tagged _ left _ right ne, h =>
    Codec.reads_tagged ne (left.reads hskipped h.1) (right.reads hskipped h.2)
  | _, .record fields, h => by
    obtain ⟨hitems, hmembers⟩ := fields.reads hskipped h
    exact Codec.reads_record hitems hmembers
  | _, .via codec _ _ _, h => Codec.reads_via (codec.reads hskipped h)

/-- The fields of a record are read from the items of an array and from the members of an object. -/
theorem Fields.reads (hskipped : Skipped unknown) : {ρ : Type} → (fields : Fields ρ) →
    fields.Lawful → fields.ReadsItems unknown ∧ fields.ReadsMembers unknown
  | _, .nil, _ => ⟨Fields.readsItems_nil, Fields.readsMembers_nil hskipped⟩
  | _, .cons _ codec _ rest, h => by
    have hcodec := codec.reads hskipped h.1
    obtain ⟨hitems, hmembers⟩ := rest.reads hskipped h.2.2
    exact ⟨Fields.readsItems_cons hcodec hitems, Fields.readsMembers_cons hcodec hmembers⟩

end

/-- A whole text, with blanks around it, is decoded as what it denotes. -/
theorem Codec.decode_of_denotes {codec : Codec α} {text before after : List Char} {value : α}
    (hskipped : Skipped unknown) (hlawful : codec.Lawful) (h : codec.Denotes unknown text value)
    (hbefore : Blanks before) (hafter : Blanks after) :
    codec.decode (before ++ (text ++ after)) = .ok value := by
  have hends : Ends after := by
    rw [← List.append_nil after]
    exact Ends.blanks_append hafter ends_nil
  have hread : codec.read (before ++ (text ++ after)) = .ok (value, after) := by
    rw [codec.read_blanks hbefore, (codec.reads hskipped hlawful text value h).2 after hends]
  have hrest : skipBlanks after = [] := by
    rw [← List.append_nil after, skipBlanks_append hafter]
    rfl
  simp only [Codec.decode, hread, hrest, List.isEmpty_nil, if_true]

end Reading

end AmountWalk.Json
