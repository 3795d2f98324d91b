import AmountWalk.Proofs.Json.Refusal
import AmountWalk.Proofs.Json.RoundTrip
import AmountWalk.Proofs.Json.Skipping

/-!
# All layouts of a value mean the same

Whoever writes a value may choose its layout: each record by itself is an array or an object, the members
of an object come in any order with members between them that nobody knows, and blanks may stand
everywhere between the pieces. `layouts_agree` says that every exported form is read from all of these
layouts, and from none of them when one member is taken out of an object or a field is given twice in it.
-/

namespace AmountWalk.Json

/-- Every text that denotes a value is decoded as that value, whatever values stand under keys that name no
field, and every text that is damaged is refused as one that is not of the form asked for. -/
structure Codec.ReadsLayouts {α : Type} (codec : Codec α) : Prop where
  whole : ∀ before text after value, Blanks before → Blanks after → codec.Denotes IsValue text value →
    codec.decode (before ++ (text ++ after)) = .ok value
  damaged : ∀ before text after, Blanks before → Blanks after → codec.Damaged IsValue text →
    ∃ flaw, codec.decode (before ++ (text ++ after)) = .error flaw ∧ flaw.category = "data"

theorem Codec.readsLayouts {α : Type} {codec : Codec α} (hlawful : codec.Lawful) :
    codec.ReadsLayouts where
  whole _ _ _ _ hbefore hafter h := Codec.decode_of_denotes skipped_isValue hlawful h hbefore hafter
  damaged _ _ after hbefore _ h :=
    ⟨.mismatched, Codec.decode_of_damaged skipped_isValue hlawful h hbefore after, rfl⟩

/-- **All readable layouts mean the same.** A table, a path, a step, a transition or a configuration is read
from every text that denotes it, and from no text in which one of its records, or of those inside it, lacks
a field or gives one twice. -/
theorem layouts_agree (σ : Type) [StateSet σ] [DistinctStates σ] :
    (table σ).ReadsLayouts ∧ (path σ).ReadsLayouts ∧ (step σ).ReadsLayouts ∧
      (transition σ).ReadsLayouts ∧ sampleConfig.ReadsLayouts ∧ renderConfig.ReadsLayouts :=
  ⟨Codec.readsLayouts (lawful_table σ), Codec.readsLayouts (lawful_path σ),
    Codec.readsLayouts (lawful_step σ), Codec.readsLayouts (lawful_transition σ),
    Codec.readsLayouts lawful_sampleConfig, Codec.readsLayouts lawful_renderConfig⟩

/-- A step as an object with its fields out of order, a key that nobody knows and no emitted character is
read, and so is one as an array with an escape. Without its state `from`, the object is refused. -/
theorem layouts_agree_step :
    DistinctStates Amount.State ∧
      (step Amount.State).decode "\x7b\"x\":[], \"to\":\"Q1\",\"from\":\"Q0\"\x7d".toList
        = .ok ⟨.q0, .q1, none⟩ ∧
      (step Amount.State).decode "[\"Q0\",\"Q1\",\"\\u0024\"]".toList = .ok ⟨.q0, .q1, some '$'⟩ ∧
      ∃ flaw, (step Amount.State).decode "\x7b\"x\":[], \"to\":\"Q1\"\x7d".toList = .error flaw ∧
        flaw.category = "data" := by
  obtain ⟨-, -, hstep, -⟩ := layouts_agree Amount.State
  have hblank : Blanks [' '] := by simp [Blanks, isBlank]
  have htail (piece : List Char) : IsTail piece (':' :: piece) :=
    ⟨[], [], blanks_nil, blanks_nil, rfl⟩
  have hnamed (members : List (List Char × List Char)) :
      List.Forall₂ IsNamed (members.map memberPiece) members := by
    rw [List.forall₂_map_left_iff, List.forall₂_same]
    exact fun member _ => isNamed_memberPiece member
  have hunknown : IsValue "[]".toList := .array (fun _ h => absurd h List.not_mem_nil) (.close blanks_nil)
  -- The members of the object, without its first field and with it.
  have hothers : (Fields.cons "to" (state Amount.State) none
      (.cons "emitted" .letterOrNull (some none) .nil)).DenotesMembers IsValue
      [("x".toList, ":[]".toList), ("to".toList, ":\"Q1\"".toList)] (.q1, none, ()) := by
    refine Or.inl ⟨_, _, [("x".toList, ":[]".toList)], [], rfl, htail _,
      Or.inl (quotes_writeString "Q1".toList), by simp, Or.inr ⟨rfl, by simp, ?_⟩⟩
    rintro member (hmem : member ∈ [("x".toList, ":[]".toList)])
    rw [List.mem_singleton.mp hmem]
    exact ⟨_, htail _, hunknown⟩
  have hmembers : (Fields.cons "from" (state Amount.State) none (.cons "to" (state Amount.State) none
      (.cons "emitted" .letterOrNull (some none) .nil))).DenotesMembers IsValue
      [("x".toList, ":[]".toList), ("to".toList, ":\"Q1\"".toList), ("from".toList, ":\"Q0\"".toList)]
      (.q0, .q1, none, ()) :=
    Or.inl ⟨_, _, [("x".toList, ":[]".toList), ("to".toList, ":\"Q1\"".toList)], [], rfl, htail _,
      Or.inl (quotes_writeString "Q0".toList), by simp, hothers⟩
  have hobject : (step Amount.State).Denotes IsValue
      "\x7b\"x\":[], \"to\":\"Q1\",\"from\":\"Q0\"\x7d".toList ⟨.q0, .q1, none⟩ := by
    refine Or.inr ⟨_, _, "\"x\":[], \"to\":\"Q1\",\"from\":\"Q0\"\x7d".toList, hmembers, hnamed _, ?_,
      by decide⟩
    exact .first blanks_nil (.next blanks_nil hblank (.next blanks_nil blanks_nil (.close blanks_nil)))
  have hlacks : (step Amount.State).Damaged IsValue "\x7b\"x\":[], \"to\":\"Q1\"\x7d".toList := by
    refine Or.inr ⟨_, _, "\"x\":[], \"to\":\"Q1\"\x7d".toList, Or.inl ⟨_, [("x".toList, ":[]".toList),
      ("to".toList, ":\"Q1\"".toList)], _, [], hmembers, rfl, rfl⟩, hnamed _, ?_, by decide⟩
    exact .first blanks_nil (.next blanks_nil hblank (.close blanks_nil))
  have hdollar : Quotes ['"', '\\', 'u', '0', '0', '2', '4', '"'] ['$'] :=
    have hunit : WritesUnit ['0', '0', '2', '4'] (((0 * 16 + 0) * 16 + 2) * 16 + 4) :=
      .intro rfl rfl rfl rfl
    ⟨[['\\', 'u', '0', '0', '2', '4']], .cons (.unit hunit rfl rfl) .nil, rfl⟩
  have harray : (step Amount.State).Denotes IsValue "[\"Q0\",\"Q1\",\"\\u0024\"]".toList
      ⟨.q0, .q1, some '$'⟩ := by
    refine Or.inl ⟨[writeString "Q0".toList, writeString "Q1".toList, _],
      "\"Q0\",\"Q1\",\"\\u0024\"]".toList, ⟨_, _, rfl, Or.inl (quotes_writeString _), _, _, rfl,
        Or.inl (quotes_writeString _), _, _, rfl, hdollar, rfl⟩, ?_, by decide⟩
    exact .first blanks_nil (.next blanks_nil blanks_nil (.next blanks_nil blanks_nil (.close blanks_nil)))
  have hwhole := hstep.whole [] _ [] _ blanks_nil blanks_nil hobject
  have hwhole' := hstep.whole [] _ [] _ blanks_nil blanks_nil harray
  have hdamaged := hstep.damaged [] _ [] blanks_nil blanks_nil hlacks
  rw [List.nil_append, List.append_nil] at hwhole hwhole' hdamaged
  exact ⟨inferInstance, hwhole, hwhole', hdamaged⟩

end AmountWalk.Json
