import AmountWalk.Dot
import Mathlib.Data.List.Basic

/-!
# Streaming diagrams

The source of a diagram is streamed fragment by fragment into a sink that may run out of room. What
the sink takes does not depend on where the fragments begin and end: they are taken like one
(`Sink.pushAll_eq_push`), so the sink ends up with as many bytes of the source as it has room for.
The cut may fall into a fragment or into a character.

That nothing follows the fragment that did not fit cannot be seen from the bytes, since a full sink
takes none. `watch` therefore notes what a sink is offered, and `handOver` is the loop of the
streaming over any taker of bytes. It is the streaming itself that is watched (`Sink.watched_eq`).
-/

namespace AmountWalk

namespace Utf8

/-- The bytes of texts one after the other. -/
theorem encode_flatten (texts : List (List Char)) :
    encode texts.flatten = (texts.map encode).flatten := by
  induction texts with
  | nil => rfl
  | cons text texts ih =>
    rw [List.flatten_cons, List.map_cons, List.flatten_cons, ← ih]
    exact List.flatMap_append

end Utf8

/-! ## What a sink takes -/

namespace Sink

variable {sink : Sink} {bytes : Utf8.Bytes}

theorem push_of_le (h : bytes.length ≤ sink.room) :
    sink.push bytes = (⟨sink.room - bytes.length, sink.taken ++ bytes⟩, true) := by
  rw [push, List.take_of_length_le h, decide_eq_true h]

theorem push_of_lt (h : sink.room < bytes.length) :
    sink.push bytes = (⟨0, sink.taken ++ bytes.take sink.room⟩, false) := by
  rw [push, Nat.sub_eq_zero_of_le (Nat.le_of_lt h), decide_eq_false (Nat.not_le.mpr h)]

/-- What fits and what comes behind it are taken like one. -/
theorem push_append_of_le (h : bytes.length ≤ sink.room) (more : Utf8.Bytes) :
    sink.push (bytes ++ more) = (sink.push bytes).1.push more := by
  rw [push_of_le h, push, push, List.length_append, List.take_append, List.take_of_length_le h,
    Nat.sub_add_eq, List.append_assoc]
  simp only [Prod.mk.injEq, true_and, decide_eq_decide]
  omega

/-- What comes behind something that does not fit makes no difference. -/
theorem push_append_of_lt (h : sink.room < bytes.length) (more : Utf8.Bytes) :
    sink.push (bytes ++ more) = sink.push bytes := by
  have hmore : sink.room < (bytes ++ more).length := by
    rw [List.length_append]
    omega
  rw [push_of_lt h, push_of_lt hmore, List.take_append_of_le_length (Nat.le_of_lt h)]

theorem pushAll_cons_of_le (h : bytes.length ≤ sink.room) (rest : List Utf8.Bytes) :
    sink.pushAll (bytes :: rest) = (sink.push bytes).1.pushAll rest := by
  rw [pushAll, push_of_le h]

theorem pushAll_cons_of_lt (h : sink.room < bytes.length) (rest : List Utf8.Bytes) :
    sink.pushAll (bytes :: rest) = sink.push bytes := by
  rw [pushAll, push_of_lt h]

/-- **Fragments are taken like one,** however a text is cut into them. -/
theorem pushAll_eq_push (sink : Sink) (fragments : List Utf8.Bytes) :
    sink.pushAll fragments = sink.push fragments.flatten := by
  induction fragments generalizing sink with
  | nil =>
    rw [List.flatten_nil, push_of_le (Nat.zero_le _), List.append_nil]
    rfl
  | cons bytes rest ih =>
    rw [List.flatten_cons]
    by_cases h : bytes.length ≤ sink.room
    · rw [pushAll_cons_of_le h, push_append_of_le h, ih]
    · rw [pushAll_cons_of_lt (Nat.not_le.mp h), push_append_of_lt (Nat.not_le.mp h)]

end Sink

/-! ## What a sink is offered -/

section HandOver

variable {τ : Type} (push : τ → Utf8.Bytes → τ × Bool)

/-- Hand fragments over in order until one is not taken whole, and say whether all were. -/
def handOver (taker : τ) : List Utf8.Bytes → τ × Bool
  | [] => (taker, true)
  | bytes :: rest =>
    match push taker bytes with
    | (taker, true) => handOver taker rest
    | (taker, false) => (taker, false)

/-- Note down what a taker is offered. -/
def watch (watched : τ × List Utf8.Bytes) (bytes : Utf8.Bytes) : (τ × List Utf8.Bytes) × Bool :=
  (((push watched.1 bytes).1, watched.2 ++ [bytes]), (push watched.1 bytes).2)

/-- Being watched makes no difference. -/
theorem handOver_watch (taker : τ) (offered fragments : List Utf8.Bytes) :
    ((handOver (watch push) (taker, offered) fragments).1.1,
        (handOver (watch push) (taker, offered) fragments).2) = handOver push taker fragments := by
  induction fragments generalizing taker offered with
  | nil => rfl
  | cons bytes rest ih =>
    rw [handOver, handOver, watch]
    cases hpush : push taker bytes with
    | mk next whole =>
      cases whole with
      | true => exact ih next _
      | false => rfl

end HandOver

namespace Sink

theorem pushAll_eq_handOver (sink : Sink) (fragments : List Utf8.Bytes) :
    sink.pushAll fragments = handOver push sink fragments := by
  induction fragments generalizing sink with
  | nil => rfl
  | cons bytes rest ih =>
    rw [pushAll, handOver]
    cases hpush : sink.push bytes with
    | mk next whole =>
      cases whole with
      | true => exact ih next
      | false => rfl

/-- Streaming fragments into a sink, watched. -/
def watched (sink : Sink) (fragments : List Utf8.Bytes) : (Sink × List Utf8.Bytes) × Bool :=
  handOver (watch push) (sink, []) fragments

/-- What is watched is the streaming. -/
theorem watched_eq (sink : Sink) (fragments : List Utf8.Bytes) :
    ((sink.watched fragments).1.1, (sink.watched fragments).2) = sink.pushAll fragments := by
  rw [watched, handOver_watch, pushAll_eq_handOver]

/-- The first fragment for which there is no room, with those before and behind it. -/
structure StopsAt (room : Nat) (fragments front : List Utf8.Bytes) (failing : Utf8.Bytes)
    (rest : List Utf8.Bytes) : Prop where
  eq : fragments = front ++ failing :: rest
  fits : front.flatten.length ≤ room
  exceeds : room < front.flatten.length + failing.length

theorem exists_stopsAt {room : Nat} {fragments : List Utf8.Bytes}
    (h : room < fragments.flatten.length) :
    ∃ front failing rest, StopsAt room fragments front failing rest := by
  induction fragments generalizing room with
  | nil => exact absurd h (Nat.not_lt_zero room)
  | cons bytes fragments ih =>
    rw [List.flatten_cons, List.length_append] at h
    by_cases hfits : bytes.length ≤ room
    · have hmore : room - bytes.length < fragments.flatten.length := by omega
      obtain ⟨front, failing, rest, rfl, hfront, hexceeds⟩ := ih hmore
      refine ⟨bytes :: front, failing, rest, rfl, ?_, ?_⟩
      all_goals
        rw [List.flatten_cons, List.length_append]
        omega
    · exact ⟨[], bytes, fragments, rfl, Nat.zero_le _, by simpa using hfits⟩

theorem handOver_watch_stop {sink : Sink} {front : List Utf8.Bytes} (failing : Utf8.Bytes)
    (before rest : List Utf8.Bytes) (hfits : front.flatten.length ≤ sink.room)
    (hexceeds : sink.room < front.flatten.length + failing.length) :
    (handOver (watch push) (sink, before) (front ++ failing :: rest)).1.2
      = before ++ front ++ [failing] := by
  induction front generalizing sink before with
  | nil =>
    have hfull : sink.room < failing.length := by simpa using hexceeds
    rw [List.nil_append, handOver, watch, push_of_lt hfull, List.append_nil]
  | cons bytes front ih =>
    rw [List.flatten_cons, List.length_append] at hfits hexceeds
    have hbytes : bytes.length ≤ sink.room := by omega
    rw [List.cons_append, handOver, watch, push_of_le hbytes]
    have hfits' : front.flatten.length ≤ sink.room - bytes.length := by omega
    have hexceeds' : sink.room - bytes.length < front.flatten.length + failing.length := by omega
    rw [ih (before ++ [bytes]) hfits' hexceeds']
    simp only [List.append_assoc, List.cons_append, List.nil_append]

/-- **Nothing is offered behind the fragment that does not fit.** -/
theorem StopsAt.offered_eq {sink : Sink} {fragments front rest : List Utf8.Bytes}
    {failing : Utf8.Bytes} (h : StopsAt sink.room fragments front failing rest) :
    (sink.watched fragments).1.2 = front ++ [failing] := by
  rw [watched, h.eq, handOver_watch_stop failing [] rest h.fits h.exceeds, List.nil_append]

end Sink

/-! ## The source of a diagram -/

namespace Dot

variable {σ : Type} [StateSet σ]

/-- The bytes of the fragments are those of the source. -/
theorem flatten_map_encode_fragments (name : List Char) (table : Table σ) :
    ((fragments name table).map Utf8.encode).flatten = Utf8.encode (text name table) :=
  (Utf8.encode_flatten _).symm

/-- **Streaming a diagram agrees with its source.** A sink with limited room takes as many bytes of
the source as it has room for. The writer is told that the sink is full exactly when there are more.
With room for all of them, what the sink took reads as the source.

The same holds of any other way of cutting the source into pieces; and where the room does not
suffice, nothing behind the first piece that does not fit is so much as offered to the sink. -/
theorem writeInto_ofRoom (name : List Char) (table : Table σ) (limit : Nat) :
    let bytes := Utf8.encode (text name table)
    let streamed := writeInto (.ofRoom limit) name table
    streamed.1.taken = bytes.take limit ∧
    (limit < bytes.length → Sink.report streamed.2 = .error "failed to write whole buffer") ∧
    (bytes.length ≤ limit →
      Sink.report streamed.2 = .ok () ∧ Utf8.decodeLossy streamed.1.taken = text name table) ∧
    ((fragments name table).map Utf8.encode).flatten = bytes ∧
    ∀ pieces : List Utf8.Bytes, pieces.flatten = bytes →
      let watched := (Sink.ofRoom limit).watched pieces
      (watched.1.1, watched.2) = streamed ∧
      (limit < bytes.length → ∃ front failing rest, Sink.StopsAt limit pieces front failing rest ∧
        watched.1.2 = front ++ [failing]) := by
  intro bytes streamed
  have hflatten : ((fragments name table).map Utf8.encode).flatten = bytes :=
    flatten_map_encode_fragments name table
  have hstreamed : streamed = (Sink.ofRoom limit).push bytes := by
    rw [← hflatten, ← Sink.pushAll_eq_push]
    rfl
  refine ⟨?taken, ?full, ?complete, hflatten, fun pieces hpieces => ⟨?cut, ?stop⟩⟩
  case taken =>
    rw [hstreamed]
    rfl
  case full =>
    intro hlt
    rw [hstreamed, Sink.push_of_lt hlt]
    rfl
  case complete =>
    intro hle
    rw [hstreamed, Sink.push_of_le hle]
    exact ⟨rfl, Utf8.decodeLossy_encode (text name table)⟩
  case cut => rw [Sink.watched_eq, Sink.pushAll_eq_push, hpieces, hstreamed]
  case stop =>
    intro hlt
    rw [← hpieces] at hlt
    obtain ⟨front, failing, rest, h⟩ := Sink.exists_stopsAt hlt
    have hofRoom : Sink.StopsAt (Sink.ofRoom limit).room pieces front failing rest := h
    exact ⟨front, failing, rest, h, hofRoom.offered_eq⟩

end Dot

end AmountWalk
