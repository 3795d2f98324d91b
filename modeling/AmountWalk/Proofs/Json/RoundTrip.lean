import AmountWalk.Amount
import AmountWalk.Json.Formats
import AmountWalk.Proofs.Json.Reading

/-!
# Exported values are read back

A written value denotes that value, whichever layout it is written in: the compact one and the
pretty one only differ in the blanks they put between the pieces. So decoding gives it back.

That holds for every codec whose names are lawful. The names of the exported forms are; those of
states are the identifiers, so there it takes that no two states share one.
-/

namespace AmountWalk.Json

/-! ## Layouts -/

/-- A member as it is written: its key and the text behind that. -/
def memberPiece (member : List Char × List Char) : List Char := writeString member.1 ++ member.2

theorem isNamed_memberPiece (member : List Char × List Char) : IsNamed (memberPiece member) member :=
  ⟨_, quotes_writeString _, rfl⟩

/-- A layout only puts blanks between the pieces. -/
structure Layout.IsBlank (layout : Layout) : Prop where
  lineBreak : ∀ depth, Blanks (layout.lineBreak depth)
  afterColon : Blanks layout.afterColon

namespace Layout

theorem isBlank_compact : compact.IsBlank :=
  ⟨fun _ => blanks_nil, blanks_nil⟩

theorem isBlank_pretty : pretty.IsBlank := by
  refine ⟨fun depth ch hmem => ?_, fun ch hmem => ?_⟩
  · rcases List.mem_cons.mp hmem with rfl | hmem
    · rfl
    · rw [List.eq_of_mem_replicate hmem]
      rfl
  · rw [List.mem_singleton.mp hmem]
    rfl

variable {layout : Layout}

/-- Joined items up to the closing bracket, from the first item on. -/
theorem exists_frame_join (h : layout.IsBlank) (depth : Nat) (closing : Char) (item : List Char)
    (items : List (List Char)) :
    ∃ text, Frame closing false items text ∧
      join ((item :: items).map fun item => layout.lineBreak (depth + 1) ++ item)
        ++ (layout.lineBreak depth ++ [closing])
        = layout.lineBreak (depth + 1) ++ (item ++ text) := by
  induction items generalizing item with
  | nil =>
    refine ⟨_, .close (h.lineBreak depth), ?_⟩
    simp [join]
  | cons next items ih =>
    obtain ⟨text, hframe, heq⟩ := ih next
    refine ⟨_, .next blanks_nil (h.lineBreak (depth + 1)) hframe, ?_⟩
    rw [← heq]
    simp [join]

/-- **Items between brackets are a frame.** -/
theorem exists_frame_enclose (h : layout.IsBlank) (depth : Nat) (opening closing : Char)
    (items : List (List Char)) :
    ∃ body, Frame closing true items body ∧
      layout.enclose depth opening closing items = opening :: body := by
  cases items with
  | nil => exact ⟨[] ++ [closing], .close blanks_nil, rfl⟩
  | cons item items =>
    obtain ⟨text, hframe, heq⟩ := exists_frame_join h depth closing item items
    refine ⟨_, .first (h.lineBreak (depth + 1)) hframe, ?_⟩
    rw [← heq]
    simp [enclose]

/-- A member is its key with the value behind it. -/
theorem exists_tail_member (h : layout.IsBlank) (name : String) (value : List Char) :
    ∃ tail, IsTail value tail ∧ layout.member name value = memberPiece (name.toList, tail) := by
  refine ⟨_, ⟨[], layout.afterColon, blanks_nil, h.afterColon, rfl⟩, ?_⟩
  simp [member, memberPiece]

/-- A single member between curly brackets. -/
theorem exists_frame_member (h : layout.IsBlank) (depth : Nat) (name : String)
    (value : List Char) :
    ∃ tail body, IsTail value tail ∧ Frame '\x7d' true [writeString name.toList ++ tail] body ∧
      layout.enclose depth '\x7b' '\x7d' [layout.member name value] = '\x7b' :: body := by
  obtain ⟨tail, htail, hmember⟩ := exists_tail_member h name value
  obtain ⟨body, hframe, heq⟩ := exists_frame_enclose h depth '\x7b' '\x7d'
    [layout.member name value]
  rw [hmember] at hframe
  exact ⟨tail, body, htail, hframe, heq⟩

end Layout

/-! ## Written values -/

section Written

variable {unknown : List Char → Prop} {layout : Layout}

mutual

/-- **A written value denotes that value.** -/
theorem Codec.denotes_write (hlayout : layout.IsBlank) : {α : Type} → (codec : Codec α) →
    codec.Lawful → ∀ depth value, codec.Denotes unknown (codec.write layout depth value) value
  | _, .flag, _, _, _ => rfl
  | _, .count, _, _, _ => rfl
  | _, .text, _, _, _ => quotes_writeString _
  | _, .letter, _, _, _ => quotes_writeString _
  | _, .letterOrNull, _, _, value => by
    cases value with
    | none => rfl
    | some ch => exact quotes_writeString [ch]
  | _, .list item, h, depth, values => by
    obtain ⟨body, hframe, heq⟩ := Layout.exists_frame_enclose hlayout depth '[' ']'
      (values.map fun value => item.write layout (depth + 1) value)
    refine ⟨_, body, ?_, hframe, heq⟩
    rw [List.forall₂_map_left_iff, List.forall₂_same]
    exact fun value _ => item.denotes_write hlayout h (depth + 1) value
  | _, .variant _ _, _, _, _ => Or.inl (quotes_writeString _)
  | _, .tagged leftTag left rightTag right _, h, depth, value => by
    cases value with
    | inl value =>
      obtain ⟨tail, body, htail, hframe, heq⟩ := Layout.exists_frame_member hlayout depth leftTag
        (left.write layout (depth + 1) value)
      exact ⟨_, _, _, tail, body, quotes_writeString _, htail, hframe, heq, rfl,
        left.denotes_write hlayout h.1 (depth + 1) value⟩
    | inr value =>
      obtain ⟨tail, body, htail, hframe, heq⟩ := Layout.exists_frame_member hlayout depth rightTag
        (right.write layout (depth + 1) value)
      exact ⟨_, _, _, tail, body, quotes_writeString _, htail, hframe, heq, rfl,
        right.denotes_write hlayout h.2 (depth + 1) value⟩
  | _, .record fields, h, depth, value => by
    obtain ⟨members, hwrite, -, hmembers⟩ := fields.denotes_write hlayout h (depth + 1) value
    obtain ⟨body, hframe, heq⟩ := Layout.exists_frame_enclose hlayout depth '\x7b' '\x7d'
      (members.map memberPiece)
    have hnamed : List.Forall₂ IsNamed (members.map memberPiece) members := by
      rw [List.forall₂_map_left_iff, List.forall₂_same]
      exact fun member _ => isNamed_memberPiece member
    refine Or.inr ⟨_, members, body, hmembers, hnamed, hframe, ?_⟩
    simp only [Codec.write, hwrite, heq]
  | _, .via codec _ encoded _, h, depth, value =>
    codec.denotes_write hlayout h depth (encoded value)

/-- The written members of a record, which are named as its fields are, give its fields. -/
theorem Fields.denotes_write (hlayout : layout.IsBlank) : {ρ : Type} → (fields : Fields ρ) →
    fields.Lawful → ∀ depth value, ∃ members,
      fields.write layout depth value = members.map memberPiece ∧
      (∀ member ∈ members, ∃ name ∈ fields.names, member.1 = name.toList) ∧
      fields.DenotesMembers unknown members value
  | _, .nil, _, _, _ => ⟨[], rfl, fun _ hmem => absurd hmem List.not_mem_nil,
      fun _ hmem => absurd hmem List.not_mem_nil⟩
  | _, .cons name codec missing rest, h, depth, (value, values) => by
    obtain ⟨hcodec, hname, hrest⟩ := h
    obtain ⟨members, hwrite, hnames, hmembers⟩ := rest.denotes_write hlayout hrest depth values
    obtain ⟨tail, htail, hmember⟩ := Layout.exists_tail_member hlayout name
      (codec.write layout depth value)
    refine ⟨(name.toList, tail) :: members, ?_, ?_, ?_⟩
    · simp only [Fields.write, hwrite, hmember, List.map_cons]
    · intro member hmem
      rcases List.mem_cons.mp hmem with rfl | hmem
      · exact ⟨name, .head _, rfl⟩
      · obtain ⟨other, hother, heq⟩ := hnames member hmem
        exact ⟨other, .tail _ hother, heq⟩
    · refine Or.inl ⟨_, tail, [], members, rfl, htail,
        codec.denotes_write hlayout hcodec depth value, fun member hmem heq => ?_, hmembers⟩
      obtain ⟨other, hother, heq'⟩ := hnames member hmem
      rw [String.toList_injective (heq'.symm.trans heq)] at hother
      exact hname hother

end

/-- Every value is read back from its compact text and from its pretty text. -/
def Codec.Faithful {α : Type} (codec : Codec α) : Prop :=
  ∀ value, codec.decode (codec.compact value) = .ok value ∧
    codec.decode (codec.pretty value) = .ok value

/-- **Lawful codecs are faithful.** -/
theorem Codec.faithful {α : Type} {codec : Codec α} (h : codec.Lawful) : codec.Faithful := by
  -- Nothing that is written has a key that names no field, so nothing need be said of such keys.
  have hskipped : Skipped fun _ => False := fun _ hfalse => hfalse.elim
  have hdecode {layout : Layout} (hlayout : layout.IsBlank) (value : α) :
      codec.decode (codec.write layout 0 value) = .ok value := by
    have hread := Codec.decode_of_denotes hskipped h (codec.denotes_write hlayout h 0 value)
      blanks_nil blanks_nil
    rwa [List.append_nil] at hread
  exact fun value => ⟨hdecode Layout.isBlank_compact value, hdecode Layout.isBlank_pretty value⟩

end Written

/-! ## Exported forms -/

/-- Names that tell the values apart stand for them. -/
theorem lawful_variant {α : Type} {values : List α} {name : α → String}
    (hmem : ∀ value, value ∈ values) (hname : Function.Injective name) :
    (Codec.variant values name).Lawful := by
  intro value
  rw [readVariant.find]
  cases hfind : values.find? fun other => (name other).toList == (name value).toList with
  | none =>
    have hne := List.find?_eq_none.mp hfind value (hmem value)
    exact absurd (beq_self_eq_true _) hne
  | some other =>
    have heq := List.find?_some hfind
    rw [beq_iff_eq] at heq
    rw [hname (String.toList_injective heq)]

theorem lawful_digitClass : digitClass.Lawful := by
  refine lawful_variant (fun cls => ?_) fun a b h => ?_
  · cases cls <;> simp
  · cases a with
    | nonZero =>
      cases b with
      | nonZero => rfl
      | any => exact absurd h (by decide)
    | any =>
      cases b with
      | nonZero => exact absurd h (by decide)
      | any => rfl

theorem lawful_label : label.Lawful := ⟨trivial, lawful_digitClass⟩

section States

variable (σ : Type) [StateSet σ] [DistinctStates σ]

theorem lawful_state : (state σ).Lawful :=
  lawful_variant StateSet.mem_all fun s t => DistinctStates.ident_injective s t

theorem lawful_transition : (transition σ).Lawful := by
  have hsrc : "from" ∉ ["to", "label"] := by decide
  have hdst : "to" ∉ ["label"] := by decide
  exact ⟨lawful_state σ, hsrc, lawful_state σ, hdst, lawful_label, List.not_mem_nil, trivial⟩

theorem lawful_table : (table σ).Lawful := by
  have hstart : "start" ∉ ["transitions"] := by decide
  exact ⟨lawful_state σ, hstart, lawful_transition σ, List.not_mem_nil, trivial⟩

theorem lawful_step : (step σ).Lawful := by
  have hsrc : "from" ∉ ["to", "emitted"] := by decide
  have hdst : "to" ∉ ["emitted"] := by decide
  exact ⟨lawful_state σ, hsrc, lawful_state σ, hdst, trivial, List.not_mem_nil, trivial⟩

theorem lawful_path : (path σ).Lawful := ⟨lawful_step σ, List.not_mem_nil, trivial⟩

end States

theorem lawful_sampleConfig : sampleConfig.Lawful := by
  have hcount : "count" ∉ ["max_attempts", "max_steps"] := by decide
  have hattempts : "max_attempts" ∉ ["max_steps"] := by decide
  exact ⟨trivial, hcount, trivial, hattempts, trivial, List.not_mem_nil, trivial⟩

theorem lawful_renderConfig : renderConfig.Lawful := by
  have hstem : "output_stem" ∉ ["format", "view", "program"] := by decide
  have hformat : "format" ∉ ["view", "program"] := by decide
  have hview : "view" ∉ ["program"] := by decide
  exact ⟨trivial, hstem, trivial, hformat, trivial, hview, trivial, List.not_mem_nil, trivial⟩

/-- **Everything that is exported is read back.** Whatever a table, a path, a step, a transition, a
state, a label, a class of digits or a configuration holds, decoding its compact text gives it back,
and so does decoding its pretty text. -/
theorem exported_faithful (σ : Type) [StateSet σ] [DistinctStates σ] :
    (table σ).Faithful ∧ (path σ).Faithful ∧ (step σ).Faithful ∧ (transition σ).Faithful ∧
      (state σ).Faithful ∧ label.Faithful ∧ digitClass.Faithful ∧ sampleConfig.Faithful ∧
      renderConfig.Faithful :=
  ⟨Codec.faithful (lawful_table σ), Codec.faithful (lawful_path σ),
    Codec.faithful (lawful_step σ), Codec.faithful (lawful_transition σ),
    Codec.faithful (lawful_state σ), Codec.faithful lawful_label,
    Codec.faithful lawful_digitClass, Codec.faithful lawful_sampleConfig,
    Codec.faithful lawful_renderConfig⟩

/-- A table that nobody checked, with characters that are escaped and one that is not. -/
def escapedTable : Table Amount.State :=
  ⟨.q9, [⟨.q0, .q1, .literal '"'⟩, ⟨.q0, .q1, .literal '\\'⟩, ⟨.q1, .q8, .literal '\x1f'⟩,
    ⟨.q8, .q0, .literal (Char.ofNat 0x1F600)⟩, ⟨.q3, .q3, .digits .any⟩]⟩

theorem exported_faithful_amount :
    DistinctStates Amount.State ∧
      (table Amount.State).decode ((table Amount.State).pretty escapedTable) = .ok escapedTable ∧
      sampleConfig.decode (sampleConfig.compact ⟨0, 1, 18446744073709551615⟩)
        = .ok ⟨0, 1, 18446744073709551615⟩ := by
  obtain ⟨htable, -, -, -, -, -, -, hsampleConfig, -⟩ := exported_faithful Amount.State
  exact ⟨inferInstance, (htable escapedTable).2, (hsampleConfig _).1⟩

end AmountWalk.Json
