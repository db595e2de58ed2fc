import TerseMarkup.Markdown.Line

/-!
# Open quotes and lists

While a document is read, its open containers form a stack. Each line first passes through the
containers that it stays in; the others are closed, and then the line may open new ones.

* `reach` — how far a line gets into the open containers.
* `Reading.follow` — closes what a line leaves.
* `Reading.enter` — opens what a line starts.
-/

namespace TerseMarkup.Markdown

/-- An open container. What it holds is kept with the newest first. -/
inductive Container where
  | quote (content : List Block)
  /-- A list. While its newest item is open, `offset` says how far the content of that item is
  indented. -/
  | list (first : Marker) (tight : Bool) (offset : Option Nat) (items : List (List Block))

/-- A container with one block more. -/
def Container.hold (b : Block) : Container → Container
  | .quote content => .quote (b :: content)
  | .list first tight offset [] => .list first tight offset [[b]]
  | .list first tight offset (item :: items) => .list first tight offset ((b :: item) :: items)

/-- The block that a container has become. -/
def Container.block : Container → Block
  | .quote content => .quote content.reverse
  | .list first tight _ items => .list first.number tight (items.reverse.map List.reverse)

/-- Whether a container is a tight list. -/
def Container.isTight : Container → Bool
  | .quote _ => false
  | .list _ tight _ _ => tight

/-- What is left of a line inside a container. A blank line stays in a list item. -/
def Container.inside? (t : Tail) : Container → Option Tail
  | .quote _ => (t.skip 3).2.pastMark?
  | .list _ _ offset _ =>
    let (missing, rest) := t.skip (offset.getD 0)
    if missing = 0 || rest.text.isEmpty then some rest else none

/-- How far a line gets into the open containers. -/
structure Reach where
  /-- The containers that the line leaves. -/
  left : Nat
  /-- Whether the line leaves the open item of the innermost container that it stays in. -/
  leavesItem : Bool
  /-- The line inside the containers. -/
  rest : Tail

/-- Whether a line stays in all containers. -/
def Reach.isInside (r : Reach) : Bool :=
  r.left == 0 && !r.leavesItem

/-- How far a line gets into containers, the outermost first. A line that leaves an item may still
go on with the list. -/
def reach (t : Tail) : List Container → Reach
  | [] => ⟨0, false, t⟩
  | c :: cs =>
    match c.inside? t with
    | some rest => reach rest cs
    | none =>
      match c with
      | .quote _ => ⟨cs.length + 1, false, t⟩
      | .list .. => ⟨cs.length, true, t⟩

/-! ## Reading -/

/-- What is read of a document. -/
structure Reading where
  /-- The finished blocks outside all containers, the newest first. -/
  blocks : List Block := []
  /-- The open containers, the innermost first. -/
  containers : List Container := []
  /-- Whether a blank line stands before the current one. -/
  afterBlank : Bool := false
  /-- Whether the newest item has nothing behind its marker. -/
  startsEmpty : Bool := false

namespace Reading

/-- Adds a block to the innermost container. -/
def put (b : Block) (r : Reading) : Reading :=
  match r.containers with
  | [] => { r with blocks := b :: r.blocks }
  | c :: cs => { r with containers := c.hold b :: cs }

/-- Closes the innermost container. A bare marker inside a tight list does not count any more. -/
def close (r : Reading) : Reading :=
  match r.containers with
  | [] => r
  | c :: cs => put c.block { r with containers := cs, startsEmpty := r.startsEmpty && !c.isTight }

/-- Closes some of the innermost containers. -/
def closeMany : Nat → Reading → Reading
  | 0, r => r
  | n + 1, r => closeMany n r.close

/-- Ends the open item of the innermost list. -/
def endItem (r : Reading) : Reading :=
  match r.containers with
  | .list first tight _ items :: cs => { r with containers := .list first tight none items :: cs }
  | _ => r

/-- An item holds nothing that a blank line divides from its bare marker. -/
def endEmptyItem (r : Reading) : Reading :=
  { (if r.startsEmpty && r.afterBlank then r.endItem else r) with startsEmpty := false }

/-- Ends a list whose items are all closed, before something that is no item of it. Otherwise a
blank line in front of it makes the list that it stands in loose. -/
def endList (r : Reading) : Reading :=
  let r := r.endEmptyItem
  let r := match r.containers with
    | .list _ _ none _ :: _ => r.close
    | _ => r
  let r := match r.containers with
    | .list first tight offset items :: cs =>
      { r with containers := .list first (tight && !r.afterBlank) offset items :: cs }
    | _ => r
  { r with afterBlank := false }

/-- Starts an item, of the list before it if their marks agree. -/
def startItem (m : Marker) (offset : Nat) (r : Reading) : Reading :=
  let r := r.endEmptyItem
  let fresh (r : Reading) : Reading :=
    let r := r.endList
    { r with containers := .list m true (some offset) [[]] :: r.containers }
  match r.containers with
  | .list first tight none items :: cs =>
    if first.joins m then
      { r with
        containers := .list first (tight && !r.afterBlank) (some offset) ([] :: items) :: cs
        afterBlank := false }
    else fresh r
  | _ => fresh r

/-- Starts a quote. -/
def startQuote (r : Reading) : Reading :=
  let r := r.endList
  { r with containers := .quote [] :: r.containers }

/-- Goes past a blank line. Inside a quote it makes no list loose, and behind a bare marker it takes
the indentation from the item, which then holds nothing. -/
def passBlank (r : Reading) : Reading :=
  match r.containers with
  | .quote _ :: _ => r
  | .list first tight (some n) items :: cs =>
    { r with
      containers := .list first tight (some (if r.startsEmpty then 0 else n)) items :: cs
      afterBlank := true }
  | _ => { r with afterBlank := true }

/-- Closes what a line leaves, and gives the line inside the rest. -/
def follow (t : Tail) (r : Reading) : Reading × Tail :=
  let reach := reach t r.containers.reverse
  let r := r.closeMany reach.left
  (if reach.leavesItem then r.endItem else r, reach.rest)

/-- Opens the containers that a line starts, and gives the line inside them. The line ends with the
marker of an empty item. -/
def enter : (fuel : Nat) → Tail → Reading → Reading × Option Tail
  | 0, t, r => (r, some t)
  | fuel + 1, t, r =>
    match t.item? with
    | some (m, offset, content) =>
      let r := r.startItem m offset
      if isEmptyLine content.text then ({ r with startsEmpty := true }, none)
      else r.enter fuel content
    | none =>
      match t.quote? with
      | some content => r.startQuote.enter fuel content
      | none => (r, some t)

/-- All blocks, once the containers are closed. -/
def finish (r : Reading) : List Block :=
  (r.closeMany r.containers.length).blocks.reverse

end Reading

end TerseMarkup.Markdown
