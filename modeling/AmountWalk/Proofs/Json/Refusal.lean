import AmountWalk.Proofs.Json.Damage

/-!
# Damaged texts are refused

Reading goes from left to right, so a text that is damaged in one place is read up to that place as if it
were whole. There the flaw is that the text is not of the form asked for, and no loop goes on behind it.
There is one lemma for each form that has parts, and `Codec.refuses` puts them together along the codec.
-/

namespace AmountWalk.Json

variable {unknown : List Char → Prop} {α β ρ : Type} {first : Bool} {piece tail text : List Char}

/-- A damaged text is refused, whatever follows it. -/
def Codec.Refuses (unknown : List Char → Prop) (codec : Codec α) : Prop :=
  ∀ text, codec.Damaged unknown text →
    StartsItem text ∧ ∀ rest, codec.read (text ++ rest) = .error .mismatched

/-! ## Lists -/

/-- The loop over items comes to the one that is refused. -/
theorem readItems_refused {item : Reader α} {front back : List (List Char)} {done : List α} {fuel : Nat}
    (hfront : ∀ other ∈ front, ∃ value, StartsItem other ∧ ReadAs item other value)
    (hstarts : StartsItem piece) (hrefused : ∀ rest, item (piece ++ rest) = .error .mismatched)
    (hframe : Frame ']' first (front ++ piece :: back) text) (hdone : done.isEmpty = first)
    (hfuel : (front ++ piece :: back).length < fuel) (rest : List Char) :
    readItems item fuel done (text ++ rest) = .error .mismatched := by
  induction front generalizing first text done fuel with
  | nil =>
    obtain ⟨fuel, rfl⟩ := Nat.exists_add_one_eq.mpr (Nat.zero_lt_of_lt hfuel)
    obtain ⟨later, -, hnext⟩ := hframe.readNextItem_cons hstarts
    rw [readItems, hdone, hnext]
    simp only [hrefused]
  | cons other front ih =>
    obtain ⟨fuel, rfl⟩ := Nat.exists_add_one_eq.mpr (Nat.zero_lt_of_lt hfuel)
    obtain ⟨value, hother, hread⟩ := hfront other List.mem_cons_self
    obtain ⟨later, hlater, hround⟩ := hframe.readItems_next hother hread hdone
    have hmore := fun other hmem => hfront other (List.mem_cons_of_mem _ hmem)
    rw [hround, ih hmore hlater rfl (Nat.lt_of_succ_lt_succ hfuel)]

theorem Codec.refuses_list {item : Codec α} (hreads : item.Reads unknown) (h : item.Refuses unknown) :
    (Codec.list item).Refuses unknown := by
  rintro text ⟨front, piece, back, body, hfront, hpiece, hframe, rfl⟩
  obtain ⟨hstarts, hrefused⟩ := h piece hpiece
  refine ⟨⟨'[', body, rfl, rfl, by decide⟩, fun rest => ?_⟩
  refine readItems_refused (fun other hmem => ?_) hstarts hrefused hframe rfl
    (hframe.length_lt_fuel rest) rest
  obtain ⟨value, hvalue⟩ := hfront other hmem
  exact ⟨value, hreads other value hvalue⟩

/-! ## Tagged values -/

/-- Behind its key, a value is refused after the colon. -/
theorem IsTail.refused {codec : Codec α} (htail : IsTail piece tail)
    (h : ∀ rest, codec.read (piece ++ rest) = .error .mismatched) (rest : List Char) :
    (readMark ':' (tail ++ rest) >>= codec.read) = .error .mismatched := by
  obtain ⟨before, after, hbefore, hafter, rfl⟩ := htail
  rw [List.append_assoc, List.cons_append, List.append_assoc, readMark_append hbefore rfl, ok_bind,
    codec.read_blanks hafter, h rest]

/-- What comes behind a value that is refused does not matter. -/
theorem bind_refused {γ δ : Type} {flaw : Flaw} {start : Except Flaw γ} {read : γ → Except Flaw δ}
    (h : (start >>= read) = .error flaw) (next : δ → Except Flaw β) :
    (start >>= fun text => read text >>= next) = .error flaw := by
  rw [← bind_assoc, h]
  rfl

theorem Codec.refuses_tagged {leftTag rightTag : String} {left : Codec α} {right : Codec β}
    (ne : leftTag ≠ rightTag) (hleft : left.Refuses unknown) (hright : right.Refuses unknown) :
    (Codec.tagged leftTag left rightTag right ne).Refuses unknown := by
  rintro text ⟨quoted, tag, piece, tail, body, hquotes, htail, hframe, rfl, hdamaged⟩
  obtain ⟨before, after, hbefore, hafter, rfl⟩ := hframe.singleton
  refine ⟨⟨'\x7b', _, rfl, rfl, by decide⟩, fun rest => ?_⟩
  obtain ⟨rfl, hpiece⟩ | ⟨rfl, hpiece⟩ := hdamaged
  · have hrefused := htail.refused (hleft piece hpiece).2 (after ++ '\x7d' :: rest)
    simp only [Codec.read, skipBlanks_object, hquotes.readKey hbefore, ok_bind, if_true]
    exact bind_refused hrefused _
  · have hrefused := htail.refused (hright piece hpiece).2 (after ++ '\x7d' :: rest)
    have hne : rightTag.toList ≠ leftTag.toList := fun h => ne (String.toList_injective h).symm
    simp only [Codec.read, skipBlanks_object, hquotes.readKey hbefore, ok_bind, if_neg hne, if_true]
    exact bind_refused hrefused _

/-! ## Records as arrays -/

/-- Of the items that give the fields, one is refused. -/
def Fields.RefusesItems (unknown : List Char → Prop) (fields : Fields ρ) : Prop :=
  ∀ pieces, fields.DamagedItems unknown pieces → ∀ first text, Frame ']' first pieces text →
    ∀ rest, fields.readArray first (text ++ rest) = .error .mismatched

theorem Fields.refusesItems_cons {name : String} {codec : Codec α} {missing : Option α}
    {fields : Fields ρ} (hreads : codec.Reads unknown) (hcodec : codec.Refuses unknown)
    (hfields : fields.RefusesItems unknown) :
    (Fields.cons name codec missing fields).RefusesItems unknown := by
  rintro pieces ⟨piece, others, rfl, hpiece | ⟨⟨value, hvalue⟩, hothers⟩⟩ first text hframe rest
  · obtain ⟨hstarts, hrefused⟩ := hcodec piece hpiece
    obtain ⟨later, -, hnext⟩ := hframe.readNextItem_cons hstarts
    simp only [Fields.readArray, hnext, hrefused]
    rfl
  · obtain ⟨hstarts, hread⟩ := hreads piece value hvalue
    obtain ⟨later, hlater, hnext⟩ := hframe.readNextItem_cons hstarts
    have hvalue := hread (later ++ rest) (hlater.ends (Or.inl rfl) rest)
    simp only [Fields.readArray, hnext, hvalue, ok_bind, hfields others hothers false later hlater rest]
    rfl

/-! ## Records as objects -/

/-- Of the members that give the fields, one is refused. -/
def Fields.RefusesMembers (unknown : List Char → Prop) (fields : Fields ρ) : Prop :=
  ∀ members, fields.DamagedMembers unknown members →
    Stumbles fields.readMember fields.emptySlots members

theorem Fields.refusesMembers_cons {name : String} {codec : Codec α} {missing : Option α}
    {fields : Fields ρ} (hreads : codec.Reads unknown) (hcodec : codec.Refuses unknown)
    (hothers : fields.ReadsMembers unknown) (hfields : fields.RefusesMembers unknown) :
    (Fields.cons name codec missing fields).RefusesMembers unknown := by
  rintro members (⟨piece, tail, front, back, rfl, htail, hne, hown⟩ | ⟨-, hne, hmembers⟩)
  · obtain ⟨hpiece, values, hvalues⟩ | ⟨⟨value, hvalue⟩, hmembers⟩ := hown
    · -- The members in front of the damaged one fill slots, as they do in the whole record.
      obtain ⟨slots, hfills, -⟩ := hothers _ values hvalues
      obtain ⟨middle, hfront, -⟩ := hfills.exists_of_append
      have hfront' : Fills (Fields.cons name codec missing fields).readMember
          (none, fields.emptySlots) front (none, middle) :=
        hfront.of_ne none fun member hmem => hne member (List.mem_append_left _ hmem)
      refine hfront'.stumbles (.here fun rest => ?_)
      rw [Fields.readMember_of_eq rfl, htail.refused (hcodec piece hpiece).2]
      rfl
    · exact (hfields _ hmembers).insert htail (hreads piece value hvalue).2 hne
  · exact (hfields members hmembers).of_ne none hne

/-- A record is refused when one of its fields is damaged, missing, or given twice. -/
theorem Codec.refuses_record {fields : Fields ρ} (hreads : fields.ReadsMembers unknown)
    (hitems : fields.RefusesItems unknown) (hmembers : fields.RefusesMembers unknown) :
    (Codec.record fields).Refuses unknown := by
  rintro text (⟨pieces, body, hdamaged, hframe, rfl⟩ |
    ⟨pieces, members, body, hdamaged, hnamed, hframe, rfl⟩)
  · refine ⟨⟨'[', body, rfl, rfl, by decide⟩, fun rest => ?_⟩
    have hskip : skipBlanks ('[' :: body ++ rest) = '[' :: (body ++ rest) := rfl
    simp only [Codec.read, hskip, hitems pieces hdamaged true body hframe rest]
    rfl
  · refine ⟨⟨'\x7b', body, rfl, rfl, by decide⟩, fun rest => ?_⟩
    have hskip : skipBlanks ('\x7b' :: body ++ rest) = '\x7b' :: (body ++ rest) := rfl
    have hstumbles (h : Stumbles fields.readMember fields.emptySlots members) :
        (Codec.record fields).read ('\x7b' :: body ++ rest) = .error .mismatched := by
      have hread := readMembers_stumbles h hnamed hframe (hframe.length_lt_fuel rest) rest
      simp only [Codec.read, hskip, hread]
      rfl
    obtain hlacks | hrepeats | hinside := hdamaged
    · obtain ⟨slots, hfills, hassemble⟩ := hlacks.exists_fills hreads
      have hread := readMembers_frame hfills hnamed hframe (hframe.length_lt_fuel rest) rest
      simp only [Codec.read, hskip, hread, ok_bind, hassemble]
      rfl
    · exact hstumbles (hrepeats.stumbles hreads)
    · exact hstumbles (hmembers members hinside)

/-! ## All codecs -/

mutual

/-- **Damaged texts are refused.** -/
theorem Codec.refuses (hskipped : Skipped unknown) : {α : Type} → (codec : Codec α) → codec.Lawful →
    codec.Refuses unknown
  | _, .flag, _ | _, .count, _ | _, .text, _ | _, .letter, _ | _, .letterOrNull, _
  | _, .variant _ _, _ => fun _ h => h.elim
  | _, .list item, h => Codec.refuses_list (item.reads hskipped h) (item.refuses hskipped h)
  | _, .tagged _ left _ right ne, h =>
    Codec.refuses_tagged ne (left.refuses hskipped h.1) (right.refuses hskipped h.2)
  | _, .record fields, h => by
    obtain ⟨hitems, hmembers⟩ := fields.refuses hskipped h
    exact Codec.refuses_record (fields.reads hskipped h).2 hitems hmembers
  | _, .via codec decoded _ _, h => fun text hdamaged => by
    obtain ⟨hstarts, hrefused⟩ := codec.refuses hskipped h text hdamaged
    refine ⟨hstarts, fun rest => ?_⟩
    simp only [Codec.read, hrefused rest]
    rfl

theorem Fields.refuses (hskipped : Skipped unknown) : {ρ : Type} → (fields : Fields ρ) →
    fields.Lawful → fields.RefusesItems unknown ∧ fields.RefusesMembers unknown
  | _, .nil, _ => ⟨fun _ h => h.elim, fun _ h => h.elim⟩
  | _, .cons _ codec _ rest, h => by
    have hreads := codec.reads hskipped h.1
    have hcodec := codec.refuses hskipped h.1
    obtain ⟨hitems, hmembers⟩ := rest.refuses hskipped h.2.2
    exact ⟨Fields.refusesItems_cons hreads hcodec hitems,
      Fields.refusesMembers_cons hreads hcodec (rest.reads hskipped h.2.2).2 hmembers⟩

end

/-- **A whole text that is damaged is not decoded,** with blanks around it or without. -/
theorem Codec.decode_of_damaged {codec : Codec α} {before : List Char} (hskipped : Skipped unknown)
    (hlawful : codec.Lawful) (h : codec.Damaged unknown text) (hbefore : Blanks before)
    (after : List Char) : codec.decode (before ++ (text ++ after)) = .error .mismatched := by
  rw [Codec.decode, codec.read_blanks hbefore, (codec.refuses hskipped hlawful text h).2 after]

end AmountWalk.Json
