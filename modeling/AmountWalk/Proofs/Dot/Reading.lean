import AmountWalk.Dot
import Mathlib.Data.List.Basic

/-!
# Reading diagrams back

A state may be called anything: its label may hold quotes, backslashes and line breaks, or look like
the line of an edge. The source of a diagram can be read back all the same.

`Dot.read` is a reader that does not know which labels there are. Its lexer goes over the source
character by character and has one rule for quoted strings, that a backslash protects the character
behind it; its parser sees tokens only. What it finds in the source of a table is a node for every
state and an edge for every transition, in order.

## The invariant

The lexer is between two tokens before and after each line, and the line has added its tokens to
those that were there before. Inside a quoted string it has collected the label so far.
-/

namespace AmountWalk.Dot

/-! ## Escaping in two passes -/

/-- Put a backslash before every occurrence of a character. -/
def protect (special : Char) (text : List Char) : List Char :=
  text.flatMap fun ch => if ch = special then ['\\', ch] else [ch]

/-- Protecting the backslashes first and then the quotes escapes a text. The other order would
protect the backslashes of the first pass once more. -/
theorem escape_eq_protect_protect (text : List Char) :
    escape text = protect '"' (protect '\\' text) := by
  unfold escape protect
  rw [List.flatMap_assoc]
  congr 1
  funext ch
  by_cases hbackslash : ch = '\\'
  · subst hbackslash
    rfl
  · simp [hbackslash]

/-! ## Tokens -/

/-- What a source is made of. -/
inductive Token where
  /-- A quoted string, without its quotes and the backslashes that protect. -/
  | quoted (text : List Char)
  | word (text : List Char)
  /-- A character that is neither blank nor part of a word or a quoted string. -/
  | mark (ch : Char)
  deriving DecidableEq

/-- Where a lexer stands, and what it has collected of the token there. -/
inductive Place where
  | between
  | inWord (text : List Char)
  | inQuotes (text : List Char)
  /-- Inside a quoted string, behind a backslash. -/
  | behindBackslash (text : List Char)

/-- A lexer on its way through a source. -/
structure Lexer where
  tokens : List Token
  place : Place

namespace Lexer

/-- Take a character that belongs to no token that is under way. -/
def start (tokens : List Token) (ch : Char) : Lexer :=
  if ch = '"' then ⟨tokens, .inQuotes []⟩
  else if ch.isAlpha then ⟨tokens, .inWord [ch]⟩
  else if ch.isWhitespace then ⟨tokens, .between⟩
  else ⟨tokens ++ [.mark ch], .between⟩

/-- Take the next character. -/
def take : Lexer → Char → Lexer
  | ⟨tokens, .between⟩, ch => start tokens ch
  | ⟨tokens, .inWord text⟩, ch =>
    if ch.isAlpha then ⟨tokens, .inWord (text ++ [ch])⟩ else start (tokens ++ [.word text]) ch
  | ⟨tokens, .inQuotes text⟩, ch =>
    if ch = '\\' then ⟨tokens, .behindBackslash text⟩
    else if ch = '"' then ⟨tokens ++ [.quoted text], .between⟩
    else ⟨tokens, .inQuotes (text ++ [ch])⟩
  | ⟨tokens, .behindBackslash text⟩, ch => ⟨tokens, .inQuotes (text ++ [ch])⟩

/-- Take all characters of a text. -/
def takeAll (lexer : Lexer) (text : List Char) : Lexer :=
  text.foldl take lexer

/-- The tokens at the end of the source, unless it ends inside a quoted string. -/
def finish : Lexer → Option (List Token)
  | ⟨tokens, .between⟩ => some tokens
  | ⟨tokens, .inWord text⟩ => some (tokens ++ [.word text])
  | ⟨_, .inQuotes _⟩ => none
  | ⟨_, .behindBackslash _⟩ => none

theorem takeAll_cons (lexer : Lexer) (ch : Char) (text : List Char) :
    lexer.takeAll (ch :: text) = (lexer.take ch).takeAll text := rfl

theorem takeAll_append (lexer : Lexer) (front back : List Char) :
    lexer.takeAll (front ++ back) = (lexer.takeAll front).takeAll back :=
  List.foldl_append

end Lexer

/-! ## Statements -/

/-- What a diagram shows. -/
inductive Statement where
  /-- A state, doubly circled or not. -/
  | node (name : List Char) (doubled : Bool)
  | edge (src dst label : List Char)
  deriving DecidableEq

/-- Whether a shape has a double circle. -/
def doubled? (word : List Char) : Option Bool :=
  if word = "circle".toList then some false
  else if word = "doublecircle".toList then some true
  else none

/-- The statements up to the brace that ends the source. A setting of the whole graph shows
nothing. -/
def statements : List Token → Option (List Statement)
  | [.mark '\x7d'] => some []
  | .word _ :: .mark '=' :: .word _ :: rest => statements rest
  | .quoted name :: .mark '[' :: .word key :: .mark '=' :: .word value :: .mark ']' :: rest =>
    if key = "shape".toList then do
      let doubled ← doubled? value
      let others ← statements rest
      some (.node name doubled :: others)
    else none
  | .quoted src :: .mark '-' :: .mark '>' :: .quoted dst :: .mark '[' :: .word key :: .mark '=' ::
      .quoted label :: .mark ']' :: rest =>
    if key = "label".toList then (statements rest).map (.edge src dst label :: ·) else none
  | _ => none

/-- Read the source of a graph whose name is known. -/
def read (name source : List Char) : Option (List Statement) := do
  let body ← ("digraph ".toList ++ name ++ " \x7b".toList).isPrefixOf? source
  let tokens ← (Lexer.takeAll ⟨[], .between⟩ body).finish
  statements tokens

/-! ## The tokens of a line -/

namespace Lexer

/-- An escaped character stands for itself. -/
theorem takeAll_escape_singleton (tokens : List Token) (text : List Char) (ch : Char) :
    takeAll ⟨tokens, .inQuotes text⟩ (escape [ch]) = ⟨tokens, .inQuotes (text ++ [ch])⟩ := by
  by_cases hspecial : ch = '\\' ∨ ch = '"'
  · have hescape : escape [ch] = ['\\', ch] := by simp [escape, hspecial]
    rw [hescape]
    rfl
  · have hescape : escape [ch] = [ch] := by simp [escape, hspecial]
    have hbackslash : ch ≠ '\\' := fun h => hspecial (Or.inl h)
    have hquote : ch ≠ '"' := fun h => hspecial (Or.inr h)
    rw [hescape, takeAll_cons, take, if_neg hbackslash, if_neg hquote]
    rfl

/-- Inside quotes, an escaped text is collected as it was before escaping. -/
theorem takeAll_escape (tokens : List Token) (front text : List Char) :
    takeAll ⟨tokens, .inQuotes front⟩ (escape text) = ⟨tokens, .inQuotes (front ++ text)⟩ := by
  induction text generalizing front with
  | nil => rw [List.append_nil]; rfl
  | cons ch text ih =>
    have hescape : escape (ch :: text) = escape [ch] ++ escape text := by
      simp [escape]
    rw [hescape, takeAll_append, takeAll_escape_singleton, ih, List.append_assoc]
    rfl

/-- **A quoted text is one token**, whatever stands in it. -/
theorem takeAll_quote (tokens : List Token) (text : List Char) :
    takeAll ⟨tokens, .between⟩ (quote text) = ⟨tokens ++ [.quoted text], .between⟩ := by
  rw [quote, List.cons_append, takeAll_cons, takeAll_append]
  have hopen : take ⟨tokens, .between⟩ '"' = ⟨tokens, .inQuotes []⟩ := rfl
  rw [hopen, takeAll_escape]
  rfl

end Lexer

variable {σ : Type} [StateSet σ]

/-- The tokens of the line of a state. -/
def nodeTokens (s : σ) : List Token :=
  [.quoted (StateSet.label s).toList, .mark '[', .word "shape".toList, .mark '=',
    .word (shape s), .mark ']']

/-- The tokens of the line of a transition. -/
def edgeTokens (t : Transition σ) : List Token :=
  [.quoted (StateSet.label t.src).toList, .mark '-', .mark '>',
    .quoted (StateSet.label t.dst).toList, .mark '[', .word "label".toList, .mark '=',
    .quoted t.label.text, .mark ']']

namespace Lexer

theorem takeAll_nodeLine (tokens : List Token) (s : σ) :
    takeAll ⟨tokens, .between⟩ (nodeLine s) = ⟨tokens ++ nodeTokens s, .between⟩ := by
  have htab : take ⟨tokens, .between⟩ '\t' = ⟨tokens, .between⟩ := rfl
  have hkey (tokens : List Token) : takeAll ⟨tokens, .between⟩ " [shape=".toList
      = ⟨tokens ++ [.mark '[', .word "shape".toList, .mark '='], .between⟩ := by
    simp [takeAll, take, start]
  have hshape (tokens : List Token) : takeAll ⟨tokens, .between⟩ (shape s ++ "]\n".toList)
      = ⟨tokens ++ [.word (shape s), .mark ']'], .between⟩ := by
    unfold shape
    split <;> simp [takeAll, take, start]
  have hname : takeAll ⟨tokens, .between⟩
      ('\t' :: quote (StateSet.label s).toList ++ " [shape=".toList)
      = ⟨tokens ++ [.quoted (StateSet.label s).toList]
          ++ [.mark '[', .word "shape".toList, .mark '='], .between⟩ := by
    rw [takeAll_append, takeAll_cons, htab, takeAll_quote, hkey]
  rw [nodeLine, List.append_assoc _ (shape s), takeAll_append, hname, hshape]
  simp [nodeTokens]

theorem takeAll_edgeLine (tokens : List Token) (t : Transition σ) :
    takeAll ⟨tokens, .between⟩ (edgeLine t) = ⟨tokens ++ edgeTokens t, .between⟩ := by
  have htab : take ⟨tokens, .between⟩ '\t' = ⟨tokens, .between⟩ := rfl
  have harrow (tokens : List Token) : takeAll ⟨tokens, .between⟩ " -> ".toList
      = ⟨tokens ++ [.mark '-', .mark '>'], .between⟩ := by
    simp [takeAll, take, start]
  have hkey (tokens : List Token) : takeAll ⟨tokens, .between⟩ " [label=".toList
      = ⟨tokens ++ [.mark '[', .word "label".toList, .mark '='], .between⟩ := by
    simp [takeAll, take, start]
  have hend (tokens : List Token) : takeAll ⟨tokens, .between⟩ "]\n".toList
      = ⟨tokens ++ [.mark ']'], .between⟩ := by
    simp [takeAll, take, start]
  simp only [edgeLine, takeAll_append, takeAll_cons, htab, takeAll_quote, harrow, hkey, hend]
  simp [edgeTokens]

/-- Lines that each add their tokens do so one after the other. -/
theorem takeAll_flatten_map {α : Type} {line : α → List Char} {tokensOf : α → List Token}
    (hline : ∀ tokens a, takeAll ⟨tokens, .between⟩ (line a) = ⟨tokens ++ tokensOf a, .between⟩)
    (tokens : List Token) (items : List α) :
    takeAll ⟨tokens, .between⟩ (items.map line).flatten
      = ⟨tokens ++ items.flatMap tokensOf, .between⟩ := by
  induction items generalizing tokens with
  | nil => simp [takeAll]
  | cons a items ih =>
    rw [List.map_cons, List.flatten_cons, takeAll_append, hline, ih, List.flatMap_cons,
      List.append_assoc]

end Lexer

/-! ## The statements of a table -/

/-- What the line of a state says. -/
def nodeOf (s : σ) : Statement :=
  .node (StateSet.label s).toList (StateSet.accepting s)

/-- What the line of a transition says. -/
def edgeOf (t : Transition σ) : Statement :=
  .edge (StateSet.label t.src).toList (StateSet.label t.dst).toList t.label.text

theorem doubled?_shape (s : σ) : doubled? (shape s) = some (StateSet.accepting s) := by
  unfold shape
  cases StateSet.accepting s <;> rfl

theorem statements_nodeTokens (s : σ) (rest : List Token) :
    statements (nodeTokens s ++ rest) = (statements rest).map (nodeOf s :: ·) := by
  simp only [nodeTokens, List.cons_append, List.nil_append, statements, doubled?_shape]
  cases statements rest <;> rfl

theorem statements_edgeTokens (t : Transition σ) (rest : List Token) :
    statements (edgeTokens t ++ rest) = (statements rest).map (edgeOf t :: ·) := by
  simp only [edgeTokens, List.cons_append, List.nil_append, statements]
  cases statements rest <;> rfl

/-- Lines that each say one statement say them one after the other. -/
theorem statements_flatMap {α : Type} {tokensOf : α → List Token} {statement : α → Statement}
    (hline : ∀ a rest,
      statements (tokensOf a ++ rest) = (statements rest).map (statement a :: ·))
    (items : List α) (rest : List Token) :
    statements (items.flatMap tokensOf ++ rest)
      = (statements rest).map (items.map statement ++ ·) := by
  induction items with
  | nil => simp
  | cons a items ih =>
    rw [List.flatMap_cons, List.append_assoc, hline, ih, Option.map_map]
    rfl

/-- The tokens of the source of a table, behind its first line. -/
def bodyTokens (table : Table σ) : List Token :=
  [.word "rankdir".toList, .mark '=', .word "LR".toList]
    ++ (StateSet.all : List σ).flatMap nodeTokens ++ table.transitions.flatMap edgeTokens
    ++ [.mark '\x7d']

/-- The lexer ends between two tokens, with those of all lines. -/
theorem takeAll_body (table : Table σ) :
    Lexer.takeAll ⟨[], .between⟩ ('\n' :: "\trankdir=LR\n".toList
        ++ ((StateSet.all : List σ).map nodeLine).flatten
        ++ (table.transitions.map edgeLine).flatten ++ "\x7d\n".toList)
      = ⟨bodyTokens table, .between⟩ := by
  have hsetting : Lexer.takeAll ⟨[], .between⟩ ('\n' :: "\trankdir=LR\n".toList)
      = ⟨[.word "rankdir".toList, .mark '=', .word "LR".toList], .between⟩ := by
    simp [Lexer.takeAll, Lexer.take, Lexer.start]
  have hclose (tokens : List Token) : Lexer.takeAll ⟨tokens, .between⟩ "\x7d\n".toList
      = ⟨tokens ++ [.mark '\x7d'], .between⟩ := by
    simp [Lexer.takeAll, Lexer.take, Lexer.start]
  rw [Lexer.takeAll_append, Lexer.takeAll_append, Lexer.takeAll_append, hsetting,
    Lexer.takeAll_flatten_map Lexer.takeAll_nodeLine,
    Lexer.takeAll_flatten_map Lexer.takeAll_edgeLine, hclose]
  rfl

theorem statements_bodyTokens (table : Table σ) :
    statements (bodyTokens table)
      = some ((StateSet.all : List σ).map nodeOf ++ table.transitions.map edgeOf) := by
  rw [bodyTokens, List.append_assoc, List.append_assoc]
  simp only [List.cons_append, List.nil_append, statements]
  rw [statements_flatMap statements_nodeTokens, statements_flatMap statements_edgeTokens]
  simp [statements]

/-- **The source of a table shows its states and its transitions**, in order. -/
theorem read_text (name : List Char) (table : Table σ) :
    read name (text name table)
      = some ((StateSet.all : List σ).map nodeOf ++ table.transitions.map edgeOf) := by
  have hsplit : ("digraph ".toList ++ name ++ " \x7b".toList).isPrefixOf? (text name table)
      = some ('\n' :: "\trankdir=LR\n".toList
        ++ ((StateSet.all : List σ).map nodeLine).flatten
        ++ (table.transitions.map edgeLine).flatten ++ "\x7d\n".toList) := by
    rw [List.isPrefixOf?_eq_some_iff_append_eq]
    simp [text, fragments]
  rw [read, hsplit, Option.bind_eq_bind, Option.bind_some, takeAll_body]
  exact statements_bodyTokens table

/-! ## Sources tell transitions apart -/

/-- Labels of the two kinds never look alike: a literal has one character, a class has five. -/
theorem labelText_injective : Function.Injective Label.text := by
  intro a b h
  cases a with
  | literal x =>
    cases b with
    | literal y => rw [List.singleton_inj.mp h]
    | digits d => cases d <;> simp [Label.text, DigitClass.text] at h
  | digits c =>
    cases b with
    | literal y => cases c <;> simp [Label.text, DigitClass.text] at h
    | digits d => revert h; cases c <;> cases d <;> decide

/-- An edge tells which transition it shows if no two states have one label. -/
theorem edgeOf_injective (hlabel : Function.Injective (StateSet.label : σ → String)) :
    Function.Injective (edgeOf : Transition σ → Statement) := by
  rintro ⟨src, dst, label⟩ ⟨src', dst', label'⟩ h
  simp only [edgeOf, Statement.edge.injEq] at h
  obtain ⟨hsrc, hdst, htext⟩ := h
  rw [hlabel (String.toList_injective hsrc), hlabel (String.toList_injective hdst),
    labelText_injective htext]

/-- **Diagrams can be read back.** Whatever the states are called, a reader for which a backslash in
a quoted string protects the character behind it finds in the source of a table one node for every
state, in declaration order and doubly circled when the state accepts, then one edge for every
transition, in table order and with its labels. So if no two states have one label, tables with one
source have the same transitions. -/
theorem source_unambiguous (name : List Char) :
    (∀ table : Table σ, read name (text name table)
      = some ((StateSet.all : List σ).map nodeOf ++ table.transitions.map edgeOf)) ∧
    (Function.Injective (StateSet.label : σ → String) →
      ∀ table table' : Table σ, text name table = text name table' →
        table.transitions = table'.transitions) := by
  refine ⟨read_text name, fun hlabel table table' h => ?_⟩
  have hread := read_text name table
  rw [h, read_text name table', Option.some_inj, List.append_cancel_left_eq] at hread
  exact ((List.map_inj_right (edgeOf_injective hlabel)).mp hread).symm

/-- States with awkward labels: an empty one, one that is quoted and one that looks like an edge. -/
def awkward : Roster :=
  ⟨[⟨"A", "", false⟩, ⟨"B", "say \"\\\"", true⟩, ⟨"C", "\" -> \"\n", false⟩]⟩

/-- A table of the awkward states that starts in one of them. -/
def awkwardTable (start : Fin 3) : Table awkward.State :=
  let state (place : Fin 3) : awkward.State := ⟨place⟩
  ⟨state start, [⟨state 0, state 1, .literal '"'⟩, ⟨state 0, state 2, .digits .nonZero⟩,
    ⟨state 2, state 1, .literal '\\'⟩]⟩

theorem source_unambiguous_awkward :
    read "g".toList (text "g".toList (awkwardTable 0))
      = some [.node [] false, .node "say \"\\\"".toList true, .node "\" -> \"\n".toList false,
          .edge [] "say \"\\\"".toList ['"'], .edge [] "\" -> \"\n".toList "[1-9]".toList,
          .edge "\" -> \"\n".toList "say \"\\\"".toList ['\\']] ∧
      Function.Injective (StateSet.label : awkward.State → String) ∧
      text "g".toList (awkwardTable 0) = text "g".toList (awkwardTable 2) ∧
      (awkwardTable 0).transitions = (awkwardTable 2).transitions := by
  have hlabel : Function.Injective (StateSet.label : awkward.State → String) := by
    have hplace : ∀ i j : Fin 3, awkward.declarations[i].label = awkward.declarations[j].label →
        i = j := by decide
    rintro ⟨i⟩ ⟨j⟩ h
    rw [hplace i j h]
  have hsame : text "g".toList (awkwardTable 0) = text "g".toList (awkwardTable 2) := rfl
  obtain ⟨hread, htell⟩ := source_unambiguous (σ := awkward.State) "g".toList
  exact ⟨hread _, hlabel, hsame, htell hlabel _ _ hsame⟩

end AmountWalk.Dot
