import AmountWalk.Table
import AmountWalk.Text.Utf8

/-!
# Diagrams in the DOT language

A table as the source of a directed graph, drawn from left to right: a node for every state, doubly
circled when it accepts, then an edge for every transition. Labels stand in quotes, so they need not
be identifiers of the language.

The source is a list of fragments. `Dot.text` joins them; `Dot.writeInto` streams their bytes into a
sink that may run out of room, and stops at the first fragment that does not fit.
-/

namespace AmountWalk

namespace Dot

/-- The content of a quoted string: a backslash protects a backslash or a quote. -/
def escape (text : List Char) : List Char :=
  text.flatMap fun ch => if ch = '\\' ∨ ch = '"' then ['\\', ch] else [ch]

/-- A quoted string. -/
def quote (text : List Char) : List Char :=
  '"' :: escape text ++ ['"']

variable {σ : Type} [StateSet σ]

/-- The shape of a state. -/
def shape (s : σ) : List Char :=
  if StateSet.accepting s then "doublecircle".toList else "circle".toList

/-- The line of a state. -/
def nodeLine (s : σ) : List Char :=
  '\t' :: quote (StateSet.label s).toList ++ " [shape=".toList ++ shape s ++ "]\n".toList

def edgeLine (t : Transition σ) : List Char :=
  '\t' :: quote (StateSet.label t.src).toList ++ " -> ".toList
    ++ quote (StateSet.label t.dst).toList ++ " [label=".toList ++ quote t.label.text
    ++ "]\n".toList

/-- The lines of a graph with the given name. -/
def fragments (name : List Char) (table : Table σ) : List (List Char) :=
  ("digraph ".toList ++ name ++ " \x7b\n".toList) :: "\trankdir=LR\n".toList
    :: (StateSet.all : List σ).map nodeLine
    ++ table.transitions.map edgeLine ++ ["\x7d\n".toList]

/-- The source of a graph with the given name. -/
def text (name : List Char) (table : Table σ) : List Char :=
  (fragments name table).flatten

end Dot

/-! ## Streaming -/

/-- A sink that takes bytes until its room is used up. -/
structure Sink where
  /-- The room that is left, in bytes. -/
  room : Nat
  /-- The bytes taken so far. -/
  taken : Utf8.Bytes

namespace Sink

/-- An empty sink with room for so many bytes. -/
def ofRoom (room : Nat) : Sink := ⟨room, []⟩

/-- The error in words of a sink that could not take everything. -/
def fullMessage : String := "failed to write whole buffer"

/-- What the writer is told: nothing if all of it was taken, otherwise the error. -/
def report (complete : Bool) : Except String Unit :=
  if complete then .ok () else .error fullMessage

/-- Take as much of a fragment as there is room for, and say whether that was all of it. -/
def push (sink : Sink) (bytes : Utf8.Bytes) : Sink × Bool :=
  (⟨sink.room - bytes.length, sink.taken ++ bytes.take sink.room⟩, bytes.length ≤ sink.room)

/-- Take fragments in order until one does not fit, and say whether all of them did. -/
def pushAll (sink : Sink) : List Utf8.Bytes → Sink × Bool
  | [] => (sink, true)
  | bytes :: rest =>
    match sink.push bytes with
    | (sink, true) => sink.pushAll rest
    | (sink, false) => (sink, false)

end Sink

/-- Stream the source of a graph into a sink, and say whether all of it was taken. -/
def Dot.writeInto {σ : Type} [StateSet σ] (sink : Sink) (name : List Char) (table : Table σ) :
    Sink × Bool :=
  sink.pushAll ((fragments name table).map Utf8.encode)

end AmountWalk
