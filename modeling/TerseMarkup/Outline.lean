import TerseMarkup.Clause

/-!
# The outline of a template

Lines nest by indentation: a block holds the lines that are deeper than its headline. A template
is compiled line by line with a stack of open blocks. The line at hand is either announced, and
then a rule is looked up for it, or handed to the innermost open block, which announces it as
content, or closes and hands it on.

`Outline.step` makes one move and `Outline.run` all of them. Every move that the standard rules
make leaves less to do, in the sense of `Outline.weight`. A rule that does not is cut short, and
its line counts as unrecognised.
-/

namespace TerseMarkup

/-- An open block. -/
inductive Frame where
  /-- The template itself, which takes every line. -/
  | document
  /-- Takes the lines deeper than `level`, and writes `close` at its end. -/
  | block (level : Nat) (close : Text)
  /-- Takes what stood on the rest of a headline at `level`, and writes `close` at its end. -/
  | inline (level : Nat) (close : Text)
  /-- Takes the lines deeper than `level`, and clauses at `level`; the newest clause is first. -/
  | statement (level : Nat) (keyword : Text) (taken : List Clause)
  deriving DecidableEq, Repr

/-- What a block writes at its end. -/
def Frame.closing (d : Delimiters) : Frame → Text
  | document => []
  | block _ close => close
  | inline _ close => close
  | statement _ keyword _ => statementEndLine d keyword

/-- What a part of a template comes to: the text written, and the line that was read and is not
part of it. -/
structure Passage where
  /-- The text written. -/
  written : Text
  /-- The first line that does not belong to the part; empty if there is none at hand. -/
  next : Line
  deriving DecidableEq, Repr

/-- A template in the middle of its compilation. -/
structure Outline where
  /-- The open blocks, the innermost first. -/
  stack : List Frame
  /-- The line at hand; an empty body means that there is none. -/
  line : Line
  /-- Whether the line at hand is to be looked up. -/
  announced : Bool
  /-- The lines still to come. -/
  cursor : Cursor
  deriving DecidableEq, Repr

namespace Outline

/-! ## Starting points -/

/-- A whole template. -/
def ofDocument (text : Text) : Outline :=
  ⟨[.document], .none, false, .ofText text⟩

/-- A single headline with what belongs to it. -/
def ofHeadline (level : Nat) (line : Text) (cur : Cursor) : Outline :=
  ⟨[], ⟨level, line⟩, true, cur⟩

/-- The rest of a headline at `level`. -/
def ofRest (level : Nat) (rest : Text) (cur : Cursor) : Outline :=
  ⟨[.inline level []], ⟨level, rest⟩, !rest.isEmpty, cur⟩

/-- The lines deeper than `level`. -/
def ofDeeper (level : Nat) (cur : Cursor) : Outline :=
  ⟨[.block level []], .none, false, cur⟩

/-! ## Moves -/

/-- The result of a move. -/
inductive Move where
  /-- A text is written, and there is more to do. -/
  | go (written : Text) (next : Outline)
  /-- The work is done, and the line at hand is handed back; or it cannot go on. -/
  | stop (result : Except Diagnostic Line) (cursor : Cursor)

/-- Announces the line at hand at the given indentation. -/
def announce (o : Outline) (level : Nat) : Move :=
  .go [] { o with line := ⟨level, o.line.body⟩, announced := true }

/-- Closes the innermost block and hands `line` to the next one. -/
def close (d : Delimiters) (o : Outline) (frame : Frame) (outer : List Frame) (line : Line) :
    Move :=
  .go (frame.closing d) { o with stack := outer, line := line }

/-- Opens the blocks of a headline or a clause, and goes on with the rest of its line. -/
def enter (stack : List Frame) (written : Text) (level : Nat) (rest : Text) (cur : Cursor) :
    Move :=
  .go written ⟨stack, ⟨level, rest⟩, !rest.isEmpty, cur⟩

/-- Carries out an opening at the given indentation. -/
def perform (o : Outline) (level : Nat) (cur : Cursor) : Opening → Move
  | .leaf written next => .go written ⟨o.stack, next, false, cur⟩
  | .block written close => enter (.block level close :: o.stack) written level [] cur
  | .inline written close rest => enter (.inline level close :: o.stack) written level rest cur
  | .statement written keyword rest =>
    let frame := Frame.statement level keyword []
    if rest.isEmpty then enter (frame :: o.stack) written level [] cur
    else enter (.inline level [] :: frame :: o.stack) written level rest cur

/-- Looks up a rule for the line at hand and reads the headline. -/
def look (recognise : Text → Option Recognition) (s : Setting) (o : Outline) : Move :=
  match recognise o.line.body with
  | none => .stop (.error (.unrecognised o.cursor.number o.line.body)) o.cursor
  | some found =>
    match found.headline.opening s o.line.indent o.line.body o.cursor with
    | (.error e, cur) => .stop (.error e) cur
    | (.ok opening, cur) => o.perform o.line.indent cur opening

/-- Goes on with the next line, or closes the innermost block if there is none. -/
def pull (d : Delimiters) (o : Outline) (frame : Frame) (outer : List Frame) : Move :=
  match o.cursor.next? with
  | none => o.close d frame outer .none
  | some (raw, cur) => .go [] { o with line := .ofRaw raw, cursor := cur }

/-- Goes on a statement at its own indentation, with a clause if the line at hand is one. -/
def goOn (d : Delimiters) (o : Outline) (level : Nat) (keyword : Text) (taken : List Clause)
    (outer : List Frame) : Move :=
  match Clause.next? keyword taken o.line.body with
  | none => o.close d (.statement level keyword taken) outer o.line
  | some (clause, t) =>
    match clause.read d t o.cursor with
    | (.error e, cur) => .stop (.error e) cur
    | (.ok (written, rest), cur) =>
      let frame := Frame.statement level keyword (clause :: taken)
      if rest.isEmpty then enter (frame :: outer) written level [] cur
      else enter (.inline level [] :: frame :: outer) written level rest cur

/-- Hands the line at hand to the innermost block. -/
def hand (d : Delimiters) (o : Outline) (frame : Frame) (outer : List Frame) : Move :=
  match frame with
  | .inline level _ =>
    if o.line.body.isEmpty || o.line.indent ≤ level then o.close d frame outer o.line
    else o.announce level
  | .document => if o.line.body.isEmpty then o.pull d frame outer else o.announce o.line.indent
  | .block level _ =>
    if o.line.body.isEmpty then o.pull d frame outer
    else if o.line.indent ≤ level then o.close d frame outer o.line
    else o.announce o.line.indent
  | .statement level keyword taken =>
    if o.line.body.isEmpty then o.pull d frame outer
    else if o.line.indent < level then o.close d frame outer o.line
    else if o.line.indent = level then o.goOn d level keyword taken outer
    else o.announce o.line.indent

/-- One move. -/
def step (recognise : Text → Option Recognition) (s : Setting) (o : Outline) : Move :=
  if o.announced then o.look recognise s
  else
    match o.stack with
    | [] => .stop (.ok o.line) o.cursor
    | frame :: outer => o.hand s.delimiters frame outer

/-! ## Runs -/

/-- How much there is left to do: lines weigh more than the line at hand, and that more than the
open blocks. -/
def weight (o : Outline) : Nat :=
  4 * o.cursor.size + 3 * o.line.body.length + o.stack.length + if o.announced then 0 else 1

/-- Makes moves until the work is done. -/
def run (recognise : Text → Option Recognition) (s : Setting) (o : Outline) :
    Except Diagnostic Passage × Cursor :=
  match o.step recognise s with
  | .stop result cur => (result.map (⟨[], ·⟩), cur)
  | .go written next =>
    if next.weight < o.weight then
      match run recognise s next with
      | (.ok passage, cur) => (.ok ⟨written ++ passage.written, passage.next⟩, cur)
      | (.error e, cur) => (.error e, cur)
    else (.error (.unrecognised o.cursor.number o.line.body), o.cursor)
termination_by o.weight

end Outline

end TerseMarkup
