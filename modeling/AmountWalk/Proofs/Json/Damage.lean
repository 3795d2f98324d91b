import AmountWalk.Proofs.Json.Reading

/-!
# Objects that lack a field or give one twice

`codec.Damaged text` says that a text is a way to write a value, but for one record in it, at whatever
depth: that one is an object from which the member of a field was taken that has to be there, or in which
a field is given a second time. Such a text is JSON, and every codec refuses it as one that is not of the
form asked for (`Codec.decode_of_damaged`).

A field that is given twice is noticed at its second key, since its slot is filled by then (`IsGiven`). A
field that is missing is noticed at the closing bracket: the other members fill the slots that they fill
with it, and its own slot stays empty (`without`).
-/

namespace AmountWalk.Json

/-! ## Damaged texts -/

/-- The field of this name has to be there. -/
def Fields.Requires (name : List Char) : {ρ : Type} → Fields ρ → Prop
  | _, .nil => False
  | _, .cons field _ missing rest =>
    if name = field.toList then missing = none else rest.Requires name

section Damaged

variable (unknown : List Char → Prop)

/-- The members give a record, but for one that was taken out. -/
def Fields.Lacks {ρ : Type} (fields : Fields ρ) (members : List (List Char × List Char)) : Prop :=
  ∃ value front member back, fields.DenotesMembers unknown (front ++ member :: back) value ∧
    fields.Requires member.1 ∧ members = front ++ back

/-- The members give a record, but for one that gives a field again. Nothing is said of what stands behind
its key. -/
def Fields.Repeats {ρ : Type} (fields : Fields ρ) (members : List (List Char × List Char)) : Prop :=
  ∃ value front member middle tail back,
    fields.DenotesMembers unknown (front ++ member :: (middle ++ back)) value ∧
    member.1 ∈ fields.names.map String.toList ∧
    members = front ++ member :: (middle ++ (member.1, tail) :: back)

mutual

/-- A text is a way to write a value, but for one field of one record in it. Nothing is said of what stands
behind that record. -/
def Codec.Damaged : {α : Type} → Codec α → List Char → Prop
  | _, .flag | _, .count | _, .text | _, .letter | _, .letterOrNull | _, .variant _ _ => fun _ => False
  | _, .list item => fun text => ∃ front piece back body,
    (∀ other ∈ front, ∃ value, item.Denotes unknown other value) ∧ item.Damaged piece ∧
    Frame ']' true (front ++ piece :: back) body ∧ text = '[' :: body
  | _, .tagged leftTag left rightTag right _ => fun text =>
    ∃ quoted tag piece tail body, Quotes quoted tag ∧ IsTail piece tail ∧
      Frame '\x7d' true [quoted ++ tail] body ∧ text = '\x7b' :: body ∧
      (tag = leftTag.toList ∧ left.Damaged piece ∨ tag = rightTag.toList ∧ right.Damaged piece)
  | _, .record fields => fun text =>
    (∃ pieces body, fields.DamagedItems pieces ∧ Frame ']' true pieces body ∧ text = '[' :: body) ∨
    (∃ pieces members body,
      (fields.Lacks unknown members ∨ fields.Repeats unknown members ∨ fields.DamagedMembers members) ∧
      List.Forall₂ IsNamed pieces members ∧ Frame '\x7d' true pieces body ∧ text = '\x7b' :: body)
  | _, .via codec _ _ _ => codec.Damaged

/-- The items give the fields of a record in order, but for one that is damaged. -/
def Fields.DamagedItems : {ρ : Type} → Fields ρ → List (List Char) → Prop
  | _, .nil => fun _ => False
  | _, .cons _ codec _ rest => fun pieces => ∃ piece others, pieces = piece :: others ∧
    (codec.Damaged piece ∨ (∃ value, codec.Denotes unknown piece value) ∧ rest.DamagedItems others)

/-- The members give the fields of a record in some order, but for one that is damaged. -/
def Fields.DamagedMembers : {ρ : Type} → Fields ρ → List (List Char × List Char) → Prop
  | _, .nil => fun _ => False
  | _, .cons name codec missing rest => fun members =>
    (∃ piece tail front back, members = front ++ (name.toList, tail) :: back ∧
      IsTail piece tail ∧ (∀ member ∈ front ++ back, member.1 ≠ name.toList) ∧
      (codec.Damaged piece ∧ (∃ values, rest.DenotesMembers unknown (front ++ back) values) ∨
        (∃ value, codec.Denotes unknown piece value) ∧ rest.DamagedMembers (front ++ back))) ∨
    (missing.isSome ∧ (∀ member ∈ members, member.1 ≠ name.toList) ∧ rest.DamagedMembers members)

end

end Damaged

/-! ## Slots -/

/-- The slots with the one of a name empty. -/
def Fields.without (name : List Char) : {ρ : Type} → (fields : Fields ρ) → fields.Slots → fields.Slots
  | _, .nil, _ => ()
  | _, .cons field _ _ rest, slots =>
    if name = field.toList then (none, slots.2) else (slots.1, rest.without name slots.2)

/-- The slot of a name is filled. -/
def Fields.IsGiven (name : List Char) : {ρ : Type} → (fields : Fields ρ) → fields.Slots → Prop
  | _, .nil, _ => False
  | _, .cons field _ _ rest, slots =>
    if name = field.toList then slots.1.isSome = true else rest.IsGiven name slots.2

variable {unknown : List Char → Prop} {α β ρ ς : Type} {name key : List Char}

section Cons

variable {field : String} {codec : Codec α} {missing : Option α} {fields : Fields ρ}

theorem Fields.without_cons (name : List Char) (slot : Option α) (slots : fields.Slots) :
    (Fields.cons field codec missing fields).without name (slot, slots)
      = if name = field.toList then (none, slots) else (slot, fields.without name slots) := rfl

theorem Fields.isGiven_cons (name : List Char) (slot : Option α) (slots : fields.Slots) :
    (Fields.cons field codec missing fields).IsGiven name (slot, slots)
      = if name = field.toList then slot.isSome = true else fields.IsGiven name slots := rfl

theorem Fields.assemble_cons (slot : Option α) (slots : fields.Slots) :
    (Fields.cons field codec missing fields).assemble (slot, slots)
      = match slot.or missing, fields.assemble slots with
        | some value, .ok others => .ok (value, others)
        | _, _ => .error .mismatched := rfl

/-- A member that was read has filled the slot of the field, whatever the other slots are, or it has to do
with the other slots only. -/
theorem Fields.readMember_cons_eq_ok {slot : Option α} {slots : fields.Slots} {text rest : List Char}
    {after : (Fields.cons field codec missing fields).Slots}
    (h : (Fields.cons field codec missing fields).readMember key (slot, slots) text = .ok (after, rest)) :
    (key = field.toList ∧ slot = none ∧ ∃ value, after = (some value, slots) ∧
      ∀ others, (Fields.cons field codec missing fields).readMember key (none, others) text
        = .ok ((some value, others), rest)) ∨
      (key ≠ field.toList ∧ ∃ slots', fields.readMember key slots text = .ok (slots', rest) ∧
        after = (slot, slots')) := by
  by_cases heq : key = field.toList
  · cases slot with
    | some value =>
      rw [Fields.readMember_cons, if_pos heq] at h
      cases h
    | none =>
      rw [Fields.readMember_of_eq heq] at h
      cases hread : readMark ':' text >>= codec.read with
      | error flaw =>
        rw [hread] at h
        cases h
      | ok result =>
        rw [hread] at h
        cases h
        exact .inl ⟨heq, rfl, _, rfl, fun others => by rw [Fields.readMember_of_eq heq, hread]; rfl⟩
  · rw [Fields.readMember_of_ne heq] at h
    cases hothers : fields.readMember key slots text with
    | error flaw =>
      rw [hothers] at h
      cases h
    | ok result =>
      rw [hothers] at h
      cases h
      exact .inr ⟨heq, _, rfl, rfl⟩

end Cons

theorem Fields.Requires.mem_names : {ρ : Type} → {fields : Fields ρ} → fields.Requires name →
    name ∈ fields.names.map String.toList
  | _, .cons field _ _ rest, h => by
    by_cases heq : name = field.toList
    · exact heq ▸ List.mem_cons_self
    · rw [Fields.Requires, if_neg heq] at h
      exact List.mem_cons_of_mem _ h.mem_names

/-- Without a field that has to be there, no record is put together. -/
theorem Fields.Requires.assemble : {ρ : Type} → {fields : Fields ρ} → fields.Requires name →
    (slots : fields.Slots) → fields.assemble (fields.without name slots) = .error .mismatched
  | _, .cons field _ missing rest, h, slots => by
    obtain ⟨slot, slots⟩ := slots
    rw [Fields.without_cons]
    by_cases heq : name = field.toList
    · rw [Fields.Requires, if_pos heq] at h
      rw [if_pos heq, Fields.assemble_cons, h]
      rfl
    · rw [Fields.Requires, if_neg heq] at h
      rw [if_neg heq, Fields.assemble_cons, h.assemble]
      cases slot.or missing <;> rfl

/-- A field is refused when it is given again. -/
theorem Fields.IsGiven.readMember : {ρ : Type} → {fields : Fields ρ} → {slots : fields.Slots} →
    fields.IsGiven key slots → (text : List Char) →
    fields.readMember key slots text = .error .mismatched
  | _, .cons field _ _ rest, slots, h, text => by
    obtain ⟨slot, slots⟩ := slots
    rw [Fields.isGiven_cons] at h
    rw [Fields.readMember_cons]
    by_cases heq : key = field.toList
    · rw [if_pos heq] at h
      rw [if_pos heq, if_pos h]
    · rw [if_neg heq] at h
      rw [if_neg heq, h.readMember]
      rfl

/-- What one member does to the slots: a filled slot stays filled, its own slot was empty and is filled, and
the other slots do not matter to it. -/
structure Fields.Steps (fields : Fields ρ) (key : List Char) (text : List Char)
    (before after : fields.Slots) (rest : List Char) : Prop where
  keeps : ∀ name, fields.IsGiven name before → fields.IsGiven name after
  gives : key ∈ fields.names.map String.toList →
    fields.IsGiven key after ∧ fields.without key after = before
  spares : ∀ name, key ≠ name →
    fields.readMember key (fields.without name before) text = .ok (fields.without name after, rest)

theorem Fields.steps : {ρ : Type} → (fields : Fields ρ) → {before after : fields.Slots} →
    {text rest : List Char} → fields.readMember key before text = .ok (after, rest) →
    fields.Steps key text before after rest
  | _, .nil, before, after, text, rest, h => ⟨fun _ h => h, nofun, fun _ _ => h⟩
  | _, .cons field codec missing others, before, after, text, rest, h => by
    obtain ⟨slot, slots⟩ := before
    obtain ⟨heq, rfl, value, rfl, hown⟩ | ⟨hne, slots', hread, rfl⟩ := Fields.readMember_cons_eq_ok h
    · refine ⟨fun name hgiven => ?_, fun _ => ⟨?_, ?_⟩, fun name hname => ?_⟩
      · rw [Fields.isGiven_cons] at hgiven ⊢
        by_cases hfield : name = field.toList
        · rw [if_pos hfield]
          rfl
        · rwa [if_neg hfield] at hgiven ⊢
      · rw [Fields.isGiven_cons, if_pos heq]
        rfl
      · rw [Fields.without_cons, if_pos heq]
      · have hfield : name ≠ field.toList := fun hfield => hname (heq.trans hfield.symm)
        rw [Fields.without_cons, Fields.without_cons, if_neg hfield, if_neg hfield]
        exact hown _
    · have hsteps := others.steps hread
      refine ⟨fun name hgiven => ?_, fun hmem => ?_, fun name hname => ?_⟩
      · rw [Fields.isGiven_cons] at hgiven ⊢
        by_cases hfield : name = field.toList
        · rwa [if_pos hfield] at hgiven ⊢
        · rw [if_neg hfield] at hgiven ⊢
          exact hsteps.keeps name hgiven
      · rw [Fields.names, List.map_cons, List.mem_cons] at hmem
        obtain ⟨hgiven, hwithout⟩ := hsteps.gives (hmem.resolve_left hne)
        rw [Fields.isGiven_cons, Fields.without_cons, if_neg hne, if_neg hne, hwithout]
        exact ⟨hgiven, rfl⟩
      · rw [Fields.without_cons, Fields.without_cons]
        by_cases hfield : name = field.toList
        · rw [if_pos hfield, if_pos hfield, Fields.readMember_of_ne hne, hread]
          rfl
        · rw [if_neg hfield, if_neg hfield, Fields.readMember_of_ne hne, hsteps.spares name hname]
          rfl

/-! ## Members that fill slots -/

section Fills

variable {fields : Fields ρ} {slots slots' : fields.Slots} {members : List (List Char × List Char)}

/-- A member that is read has done one step. -/
theorem ReadAs.steps {tail : List Char} (h : ReadAs (fields.readMember key slots) tail slots') :
    fields.Steps key tail slots slots' [] := by
  have hread := h [] ends_nil
  rw [List.append_nil] at hread
  exact fields.steps hread

theorem Fills.isGiven (h : Fills fields.readMember slots members slots')
    (hgiven : fields.IsGiven name slots) : fields.IsGiven name slots' := by
  induction h with
  | nil => exact hgiven
  | cons hmember _ ih => exact ih (hmember.steps.keeps name hgiven)

/-- No member gives a field that was given before. -/
theorem Fills.ne_of_isGiven (h : Fills fields.readMember slots members slots')
    (hgiven : fields.IsGiven name slots) : ∀ member ∈ members, member.1 ≠ name := by
  induction h with
  | nil => exact nofun
  | @cons _ _ _ key tail members hmember _ ih =>
    intro member hmem
    obtain rfl | hmem := List.mem_cons.mp hmem
    · rintro rfl
      have hread := hmember [] ends_nil
      rw [hgiven.readMember] at hread
      cases hread
    · exact ih (hmember.steps.keeps name hgiven) member hmem

/-- Members with other names fill the other slots just so when the slot of a name is empty. -/
theorem Fills.without (h : Fills fields.readMember slots members slots')
    (hne : ∀ member ∈ members, member.1 ≠ name) :
    Fills fields.readMember (fields.without name slots) members (fields.without name slots') := by
  induction h with
  | nil => exact .nil
  | @cons _ _ _ key tail members hmember _ ih =>
    refine .cons (fun rest hends => ?_) (ih fun member hmem => hne member (.tail _ hmem))
    exact (fields.steps (hmember rest hends)).spares name (hne (key, tail) (.head _))

/-- **A member that is taken out leaves its slot empty,** and the other slots filled as with it. -/
theorem Fields.Lacks.exists_fills (hreads : fields.ReadsMembers unknown)
    (h : fields.Lacks unknown members) :
    ∃ slots, Fills fields.readMember fields.emptySlots members slots ∧
      fields.assemble slots = .error .mismatched := by
  obtain ⟨value, front, member, back, hdenotes, hrequires, rfl⟩ := h
  obtain ⟨slots, hfills, -⟩ := hreads _ value hdenotes
  obtain ⟨before, hfront, hrest⟩ := hfills.exists_of_append
  cases hrest with
  | @cons _ after _ key tail _ hmember hback =>
    obtain ⟨hgiven, hwithout⟩ := hmember.steps.gives hrequires.mem_names
    have hothers := hback.without (hback.ne_of_isGiven hgiven)
    rw [hwithout] at hothers
    exact ⟨_, hfront.append hothers, hrequires.assemble slots⟩

end Fills

/-! ## Members that are refused -/

/-- Of these members, one is refused, and those before it fill slots. -/
inductive Stumbles (member : List Char → ς → Reader ς) : ς → List (List Char × List Char) → Prop where
  | here {slots : ς} {key tail : List Char} {members : List (List Char × List Char)}
      (h : ∀ rest, member key slots (tail ++ rest) = .error .mismatched) :
      Stumbles member slots ((key, tail) :: members)
  | later {slots slots' : ς} {key tail : List Char} {members : List (List Char × List Char)}
      (hmember : ReadAs (member key slots) tail slots') (hrest : Stumbles member slots' members) :
      Stumbles member slots ((key, tail) :: members)

theorem Fills.stumbles {member : List Char → ς → Reader ς} {slots slots' : ς}
    {front back : List (List Char × List Char)} (h : Fills member slots front slots')
    (hback : Stumbles member slots' back) : Stumbles member slots (front ++ back) := by
  induction h with
  | nil => exact hback
  | cons hmember _ ih => exact .later hmember (ih hback)

/-- The loop over members comes to the one that is refused. -/
theorem readMembers_stumbles {member : List Char → ς → Reader ς} {slots : ς}
    {members : List (List Char × List Char)} {first : Bool} {pieces : List (List Char)}
    {text : List Char} {fuel : Nat} (h : Stumbles member slots members)
    (hnamed : List.Forall₂ IsNamed pieces members) (hframe : Frame '\x7d' first pieces text)
    (hfuel : pieces.length < fuel) (rest : List Char) :
    readMembers member fuel first slots (text ++ rest) = .error .mismatched := by
  induction h generalizing first text pieces fuel with
  | here hmember =>
    cases hnamed with
    | cons hpiece _ =>
      obtain ⟨fuel, rfl⟩ := Nat.exists_add_one_eq.mpr (Nat.zero_lt_of_lt hfuel)
      obtain ⟨quoted, hquotes, rfl⟩ := hpiece
      obtain ⟨later, -, hnext⟩ := hframe.readNextKey_cons hquotes
      rw [readMembers, hnext]
      simp only [hmember]
  | later hmember _ ih =>
    cases hnamed with
    | cons hpiece hnamed =>
      obtain ⟨fuel, rfl⟩ := Nat.exists_add_one_eq.mpr (Nat.zero_lt_of_lt hfuel)
      obtain ⟨later, hlater, hround⟩ := hframe.readMembers_next hpiece hmember
      rw [hround, ih hnamed hlater (Nat.lt_of_succ_lt_succ hfuel)]

/-- **A field that is given again is refused** at its second key. -/
theorem Fields.Repeats.stumbles {fields : Fields ρ} {members : List (List Char × List Char)}
    (hreads : fields.ReadsMembers unknown) (h : fields.Repeats unknown members) :
    Stumbles fields.readMember fields.emptySlots members := by
  obtain ⟨value, front, member, middle, tail, back, hdenotes, hname, rfl⟩ := h
  obtain ⟨slots, hfills, -⟩ := hreads _ value hdenotes
  obtain ⟨before, hfront, hrest⟩ := hfills.exists_of_append
  cases hrest with
  | cons hmember hrest =>
    -- The first member of the field has filled its slot, and none in the middle empties it.
    obtain ⟨after, hmiddle, -⟩ := hrest.exists_of_append
    have hgiven := hmiddle.isGiven (hmember.steps.gives hname).1
    exact hfront.stumbles (.later hmember (hmiddle.stumbles (.here fun rest => hgiven.readMember _)))

section Field

variable {field : String} {codec : Codec α} {missing : Option α} {fields : Fields ρ}
  {piece tail : List Char}

/-- Members with other names are refused as without the field. -/
theorem Stumbles.of_ne {members : List (List Char × List Char)} {slots : fields.Slots}
    (slot : Option α) (h : Stumbles fields.readMember slots members)
    (hne : ∀ member ∈ members, member.1 ≠ field.toList) :
    Stumbles (Fields.cons field codec missing fields).readMember (slot, slots) members := by
  induction h with
  | here hmember =>
    refine .here fun rest => ?_
    rw [Fields.readMember_of_ne (hne _ (.head _)), hmember]
    rfl
  | later hmember _ ih =>
    refine .later (fun rest hends => ?_) (ih fun member hmem => hne member (.tail _ hmem))
    rw [Fields.readMember_of_ne (hne _ (.head _)), hmember rest hends]
    rfl

/-- The member of a field in between does not help the others. -/
theorem Stumbles.insert {value : α} {slots : fields.Slots} {front back : List (List Char × List Char)}
    (htail : IsTail piece tail) (hread : ReadAs codec.read piece value)
    (hne : ∀ member ∈ front ++ back, member.1 ≠ field.toList)
    (h : Stumbles fields.readMember slots (front ++ back)) :
    Stumbles (Fields.cons field codec missing fields).readMember (none, slots)
      (front ++ (field.toList, tail) :: back) := by
  induction front generalizing slots with
  | nil => exact .later (readMember_self slots htail hread) (h.of_ne (some value) hne)
  | cons member front ih =>
    have hmore := fun other hmem => hne other (List.mem_cons_of_mem _ hmem)
    cases h with
    | here hmember =>
      -- The others are refused in front of the field's own member, which is not read at all.
      refine .here fun rest => ?_
      rw [Fields.readMember_of_ne (hne _ (.head _)), hmember]
      rfl
    | later hmember hrest =>
      refine .later (fun rest hends => ?_) (ih hmore hrest)
      rw [Fields.readMember_of_ne (hne _ (.head _)), hmember rest hends]
      rfl

end Field

end AmountWalk.Json
