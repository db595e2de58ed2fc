import TerseMarkup.Proofs.Forest

/-!
# Chains in a forest

Some lines of a forest belong together: a first line, lines at its own indentation that go on with
it, and one end for all of them. `Link` is a line with its part in such a chain. A line that goes on
a chain is a *clause*. `Link.WellPlaced` says where clauses may stand: the nearest line before a
clause that is not deeper than it has the same indentation, and its chain is still open.

The parent of a line is the same as in any forest. `Link.render` writes the lines of one parent
chain by chain: a line with what is below it, then each clause that follows it among its siblings
with what is below that, and then the end of the line, once.

A compiler goes through the lines with those that are still open, and a clause takes the place of
the line that it goes on. `Link.resume` is this walk, and `Link.resume_eq_render` shows that it
writes the forest. The proof goes through the plain forest of the same lines, in which a line has no
end if a clause goes on with it (`Link.settled`).
-/

namespace TerseMarkup

/-- The part of a line in a chain. -/
inductive Part where
  /-- The line is not part of a chain. -/
  | whole
  /-- The line starts a chain. -/
  | first
  /-- A clause that another clause may follow. -/
  | middle
  /-- A clause that ends the chain. -/
  | last
  deriving DecidableEq, Repr

/-- A line of a forest with chains. All lines of a chain have the same end. -/
structure Link extends Node where
  /-- The part of the line in a chain. -/
  part : Part
  deriving DecidableEq, Repr

namespace Link

/-- The line goes on a chain. -/
def isClause (link : Link) : Bool :=
  link.part == .middle || link.part == .last

/-- A clause may go on with the line. -/
def isOpen (link : Link) : Bool :=
  link.part == .first || link.part == .middle

/-- The lines without their chains. -/
def nodes (links : List Link) : List Node :=
  links.map Link.toNode

/-- Whether the line with a given number is a clause. -/
def isClauseAt (links : List Link) (i : Nat) : Bool :=
  links[i]?.any isClause

/-- Whether a clause may go on with the line with a given number. -/
def isOpenAt (links : List Link) (i : Nat) : Bool :=
  links[i]?.any isOpen

/-- What is written at the end of the line with a given number. -/
def closedAt (links : List Link) (i : Nat) : Text :=
  (links[i]?.map fun link => link.closed).getD []

/-- The nearest line before a clause that is not deeper than the clause has the same indentation,
and a clause may go on with it. -/
def WellPlaced (links : List Link) : Prop :=
  ∀ j < links.length, isClauseAt links j = true →
    ∃ i ∈ Node.nearest? (nodes links) (Node.indentAt (nodes links) j + 1) j,
      Node.indentAt (nodes links) i = Node.indentAt (nodes links) j ∧ isOpenAt links i = true

instance decidableWellPlaced (links : List Link) : Decidable (WellPlaced links) :=
  inferInstanceAs (Decidable (∀ j < links.length, isClauseAt links j = true →
    ∃ i ∈ Node.nearest? (nodes links) (Node.indentAt (nodes links) j + 1) j,
      Node.indentAt (nodes links) i = Node.indentAt (nodes links) j ∧ isOpenAt links i = true))

/-- The lines that belong to a chain all end in the same way. -/
def Uniform (links : List Link) (stop : Text) : Prop :=
  ∀ link ∈ links, link.part ≠ .whole → link.closed = stop

/-! ## The forest, chain by chain -/

/-- What is written for siblings, given what is written for each of them up to its end: a line, the
clauses that follow it, and the end of the line. -/
def join (links : List Link) : List (Nat × Text) → Text
  | [] => []
  | (i, t) :: rest =>
    t ++ ((rest.takeWhile (isClauseAt links ·.1)).map Prod.snd).flatten ++ closedAt links i ++
      join links (rest.dropWhile (isClauseAt links ·.1))
termination_by siblings => siblings.length
decreasing_by exact Nat.lt_succ_of_le (List.dropWhile_sublist _).length_le

/-- What is written for a line up to its end: its start and the lines below it. -/
def renderAt (links : List Link) (i : Nat) : Text :=
  match links[i]? with
  | none => []
  | some link =>
    link.opened ++ join links ((Node.children (nodes links) (some i)).attach.map
      fun ⟨j, _⟩ => (j, renderAt links j))
termination_by links.length - i
decreasing_by
  rename_i h
  have hlt := Node.lt_of_mem_children h
  rw [nodes, List.length_map] at hlt
  omega

/-- What is written for the whole forest. -/
def render (links : List Link) : Text :=
  join links ((Node.children (nodes links) none).map fun j => (j, renderAt links j))

variable {links : List Link} {link : Link} {i j k m : Nat} {t u stop : Text}

/-- A line is written with its start in front of the lines below it. -/
theorem renderAt_eq (h : links[i]? = some link) :
    renderAt links i = link.opened ++ join links
      ((Node.children (nodes links) (some i)).map fun j => (j, renderAt links j)) := by
  rw [renderAt, h]
  simp only [List.map_attach_eq_pmap, List.pmap_eq_map]

/-- A clause goes on with what is in front of it. -/
theorem join_cons_clause (h : isClauseAt links j = true) (rest : List (Nat × Text)) :
    join links ((i, t) :: (j, u) :: rest) = join links ((i, t ++ u) :: rest) := by
  rw [join, join, List.takeWhile_cons_of_pos (by exact h), List.dropWhile_cons_of_pos (by exact h)]
  simp

/-- In front of any other line, a sibling is closed. -/
theorem join_cons_of_not_clause (h : isClauseAt links j = false) (rest : List (Nat × Text)) :
    join links ((i, t) :: (j, u) :: rest) =
      t ++ closedAt links i ++ join links ((j, u) :: rest) := by
  rw [join, List.takeWhile_cons_of_neg (by simp [h]), List.dropWhile_cons_of_neg (by simp [h])]
  simp

/-- The last sibling is closed. -/
theorem join_singleton : join links [(i, t)] = t ++ closedAt links i := by
  rw [join, List.takeWhile_nil, List.dropWhile_nil, join]
  simp

/-- Of the first line only the end matters. -/
theorem join_congr (h : closedAt links i = closedAt links j) (rest : List (Nat × Text)) :
    join links ((i, t) :: rest) = join links ((j, t) :: rest) := by
  rw [join, join, h]

/-! ## The plain forest of a forest with chains -/

/-- The first of `rest` that is not deeper than `level` goes on with a line at `level`. -/
def goneOn (level : Nat) (rest : List Link) : Bool :=
  (rest.find? (·.indent ≤ level)).any fun link => link.isClause && link.indent == level

/-- The lines with the ends that are written directly behind what is below them. -/
def settled : List Link → List Node
  | [] => []
  | link :: rest =>
    ⟨link.indent, link.opened, if goneOn link.indent rest then [] else link.closed⟩ :: settled rest

/-- What is written directly behind the lines below the line with a given number. -/
def endAt (links : List Link) (i : Nat) : Text :=
  if goneOn (Node.indentAt (nodes links) i) (links.drop (i + 1)) then [] else closedAt links i

/-- Leaving out the chains does not change the number of lines. -/
theorem length_nodes (links : List Link) : (nodes links).length = links.length :=
  List.length_map _

/-- Settling the ends does not change the number of lines. -/
theorem length_settled (links : List Link) : (settled links).length = links.length := by
  induction links with
  | nil => rfl
  | cons link rest ih => rw [settled, List.length_cons, List.length_cons, ih]

/-- Leaving out the chains does not change the indentations. -/
theorem indentAt_nodes (h : links[i]? = some link) :
    Node.indentAt (nodes links) i = link.indent := by
  simp [Node.indentAt, nodes, h]

/-- Settling the ends changes the ends only. -/
theorem getElem?_settled (h : links[i]? = some link) :
    (settled links)[i]? = some ⟨link.indent, link.opened, endAt links i⟩ := by
  have hclosed : closedAt links i = link.closed := by simp [closedAt, h]
  rw [endAt, hclosed, indentAt_nodes h]
  induction links generalizing i with
  | nil => cases h
  | cons first rest ih =>
    cases i with
    | zero =>
      cases h
      rfl
    | succ i => exact ih h (by simp [closedAt, List.getElem?_cons_succ.symm.trans h])

/-- Settling the ends does not change the indentations. -/
theorem indentAt_settled (links : List Link) (i : Nat) :
    Node.indentAt (settled links) i = Node.indentAt (nodes links) i := by
  cases h : links[i]? with
  | some link => rw [indentAt_nodes h, Node.indentAt, getElem?_settled h, Option.map_some,
      Option.getD_some]
  | none =>
    have hsettled : (settled links)[i]? = none := by
      rw [List.getElem?_eq_none_iff, length_settled]
      exact List.getElem?_eq_none_iff.1 h
    simp [Node.indentAt, nodes, h, hsettled]

/-- Settling the ends does not change which line is the nearest one. -/
theorem nearest?_settled (links : List Link) (bound i : Nat) :
    Node.nearest? (settled links) bound i = Node.nearest? (nodes links) bound i := by
  induction i with
  | zero => rfl
  | succ i ih => rw [Node.nearest?, Node.nearest?, indentAt_settled, ih]

/-- The ends make no difference to who is whose parent. -/
theorem children_settled (links : List Link) (parent : Option Nat) :
    Node.children (settled links) parent = Node.children (nodes links) parent := by
  unfold Node.children Node.parent?
  simp only [length_settled, length_nodes, indentAt_settled, nearest?_settled]

/-! ## Siblings -/

/-- The number `m` is that of the first line behind line `j` that is not deeper, or of the end of
the forest. -/
structure Stops (links : List Link) (j m : Nat) : Prop where
  lt : j < m
  le : m ≤ links.length
  deeper : ∀ k, j < k → k < m → Node.indentAt (nodes links) j < Node.indentAt (nodes links) k
  stop : m < links.length → Node.indentAt (nodes links) m ≤ Node.indentAt (nodes links) j

/-- There is a first line that is not deeper, or the end of the forest. -/
theorem exists_stops (h : j < links.length) : ∃ m, Stops links j m := by
  -- The search starts behind line `j` and goes on as long as the lines are deeper.
  have hsearch (n : Nat) : ∀ a, j < a → a + n = links.length →
      (∀ k, j < k → k < a → Node.indentAt (nodes links) j < Node.indentAt (nodes links) k) →
      ∃ m, Stops links j m := by
    induction n with
    | zero =>
      intro a hja ha hdeeper
      exact ⟨a, hja, Nat.le_of_eq ha, hdeeper, fun hlt => by omega⟩
    | succ n ih =>
      intro a hja ha hdeeper
      by_cases hstop : Node.indentAt (nodes links) a ≤ Node.indentAt (nodes links) j
      · exact ⟨a, hja, by omega, hdeeper, fun _ => hstop⟩
      · apply ih (a + 1) (Nat.lt_succ_of_lt hja) (by omega)
        intro k hjk hka
        rcases Nat.lt_or_eq_of_le (Nat.le_of_lt_succ hka) with hlt | rfl
        · exact hdeeper k hjk hlt
        · exact Nat.lt_of_not_le hstop
  exact hsearch (links.length - (j + 1)) (j + 1) (Nat.lt_succ_self j) (by omega)
    fun k hjk hk => by omega

/-- This is the line that a search behind line `j` finds. -/
theorem Stops.find?_drop (h : Stops links j m) :
    (links.drop (j + 1)).find? (·.indent ≤ Node.indentAt (nodes links) j) = links[m]? := by
  have hsplit : links.drop (j + 1) = (links.drop (j + 1)).take (m - (j + 1)) ++ links.drop m := by
    have hdrop : (links.drop (j + 1)).drop (m - (j + 1)) = links.drop m := by
      rw [List.drop_drop, Nat.add_sub_cancel' h.lt]
    rw [← hdrop, List.take_append_drop]
  have hfront : ((links.drop (j + 1)).take (m - (j + 1))).find?
      (·.indent ≤ Node.indentAt (nodes links) j) = none := by
    rw [List.find?_eq_none]
    intro link hlink
    obtain ⟨k, hk, heq⟩ := List.mem_take_iff_getElem.1 hlink
    have hat : links[j + 1 + k]? = some link := by
      rw [← List.getElem?_drop, List.getElem?_eq_getElem (by omega), heq]
    have hdeeper := h.deeper (j + 1 + k) (by omega) (by omega)
    rw [indentAt_nodes hat] at hdeeper
    simpa using hdeeper
  rw [hsplit, List.find?_append, hfront, Option.none_or]
  cases hm : links[m]? with
  | none =>
    rw [List.drop_eq_nil_of_le (List.getElem?_eq_none_iff.1 hm)]
    rfl
  | some link =>
    obtain ⟨hlt, heq⟩ := List.getElem?_eq_some_iff.1 hm
    have hstop := h.stop hlt
    rw [indentAt_nodes hm] at hstop
    rw [List.drop_eq_getElem_cons hlt, heq, List.find?_cons_of_pos (by simpa using hstop)]

/-- A clause that goes on with a line is the first line behind it that is not deeper. -/
theorem goneOn_iff (h : Stops links j m) :
    goneOn (Node.indentAt (nodes links) j) (links.drop (j + 1)) = true ↔
      isClauseAt links m = true ∧
        Node.indentAt (nodes links) m = Node.indentAt (nodes links) j := by
  rw [goneOn, h.find?_drop, isClauseAt]
  cases hm : links[m]? with
  | none => simp
  | some link => simp [indentAt_nodes hm]

/-- The first line behind a line that is not deeper has the same parent, or it has that parent, or
an outer one, behind it. -/
theorem Stops.parent?_eq (h : Stops links j m) (hm : m < links.length) :
    Node.parent? (nodes links) m = Node.parent? (nodes links) j ∨
      ∃ a, Node.parent? (nodes links) j = some a ∧
        Node.indentAt (nodes links) m ≤ Node.indentAt (nodes links) a := by
  have hstop := h.stop hm
  cases hparent : Node.parent? (nodes links) j with
  | none =>
    left
    have hleast := Node.nearest?_eq_none_iff.1 hparent
    refine Node.nearest?_eq_none_iff.2 fun k hk => ?_
    rcases Nat.lt_trichotomy k j with hlt | rfl | hgt
    · exact Nat.le_trans hstop (hleast k hlt)
    · exact hstop
    · exact Nat.le_trans hstop (Nat.le_of_lt (h.deeper k hgt hk))
  | some a =>
    obtain ⟨haj, -, hbetween⟩ := Node.nearest?_eq_some_iff.1 hparent
    by_cases hlt : Node.indentAt (nodes links) a < Node.indentAt (nodes links) m
    · left
      refine Node.nearest?_eq_some_iff.2 ⟨Nat.lt_trans haj h.lt, hlt, fun k hak hk => ?_⟩
      rcases Nat.lt_trichotomy k j with hlt | rfl | hgt
      · exact Nat.le_trans hstop (hbetween k hak hlt)
      · exact hstop
      · exact Nat.le_trans hstop (Nat.le_of_lt (h.deeper k hgt hk))
    · exact .inr ⟨a, rfl, Nat.le_of_not_lt hlt⟩

/-- The numbers of the siblings behind line `j`, if `parent` is its parent. -/
def later (links : List Link) (parent : Option Nat) (j : Nat) : List Nat :=
  Node.childrenIn (nodes links) parent (j + 1) (links.length - (j + 1))

/-- The next sibling of a line, if there is one, is the first line behind it that is not deeper. -/
theorem later_cases (h : Stops links j m) :
    (m < links.length ∧ Node.parent? (nodes links) m = Node.parent? (nodes links) j ∧
      later links (Node.parent? (nodes links) j) j =
        m :: later links (Node.parent? (nodes links) j) m) ∨
    (later links (Node.parent? (nodes links) j) j = [] ∧
      goneOn (Node.indentAt (nodes links) j) (links.drop (j + 1)) = false) := by
  have hm := h.le
  have hparent : ∀ a, Node.parent? (nodes links) j = some a → a < j :=
    fun a ha => (Node.nearest?_eq_some_iff.1 ha).1
  have hskip : later links (Node.parent? (nodes links) j) j =
      Node.childrenIn (nodes links) (Node.parent? (nodes links) j) m (links.length - m) := by
    have hnone : Node.childrenIn (nodes links) (Node.parent? (nodes links) j) (j + 1)
        (m - (j + 1)) = [] := by
      apply Node.childrenIn_eq_nil
      intro k hk hk'
      exact Node.parent?_ne_of_deeper hparent h.deeper hk (by omega)
    have hlen : links.length - (j + 1) = (m - (j + 1)) + (links.length - m) := by
      have := h.lt
      omega
    have hj : j + 1 + (m - (j + 1)) = m := by
      have := h.lt
      omega
    rw [later, hlen, Node.childrenIn_add, hnone, List.nil_append, hj]
  rcases Nat.lt_or_eq_of_le hm with hlt | rfl
  · rcases h.parent?_eq hlt with heq | ⟨a, ha, hle⟩
    · left
      refine ⟨hlt, heq, ?_⟩
      have hlen : links.length - m = 1 + (links.length - (m + 1)) := by omega
      rw [hskip, hlen, Node.childrenIn_add, Node.childrenIn_one heq]
      rfl
    · right
      constructor
      · rw [hskip, ha]
        apply Node.childrenIn_eq_nil
        intro k hk hk'
        apply Node.parent?_ne_of_stop (Nat.lt_trans (hparent a ha) h.lt) (fun _ => hle) hk
        rw [length_nodes]
        omega
      · rw [Bool.eq_false_iff]
        intro hgone
        have hindent := ((goneOn_iff h).1 hgone).2
        have hlt := (Node.nearest?_eq_some_iff.1 ha).2.1
        omega
  · right
    constructor
    · rw [hskip, Nat.sub_self]
      rfl
    · rw [Bool.eq_false_iff]
      intro hgone
      have hclause := ((goneOn_iff h).1 hgone).1
      simp [isClauseAt] at hclause

/-- A clause is the next sibling of a line of its own indentation, with which it may go on. -/
theorem WellPlaced.next (hplaced : WellPlaced links) (h : Stops links j m) (hm : m < links.length)
    (hparent : Node.parent? (nodes links) m = Node.parent? (nodes links) j)
    (hclause : isClauseAt links m = true) :
    Node.indentAt (nodes links) m = Node.indentAt (nodes links) j ∧ isOpenAt links j = true := by
  obtain ⟨i, hi, hindent, hopen⟩ := hplaced m hm hclause
  obtain ⟨him, -, hbetween⟩ := Node.nearest?_eq_some_iff.1 (Option.mem_def.1 hi)
  have hstop := h.stop hm
  rcases Nat.lt_trichotomy i j with hlt | rfl | hgt
  · -- Otherwise the parent of both lies between the two, and is deeper than the clause.
    have hj := hbetween j hlt h.lt
    cases hp : Node.parent? (nodes links) j with
    | none =>
      have := Node.nearest?_eq_none_iff.1 hp i hlt
      omega
    | some a =>
      rw [hp] at hparent
      obtain ⟨ham, hlow, -⟩ := Node.nearest?_eq_some_iff.1 hparent
      have hai : a < i ∨ a = i := by
        rcases Nat.lt_trichotomy a i with hlt' | heq | hgt
        · exact .inl hlt'
        · exact .inr heq
        · have := hbetween a hgt ham
          omega
      rcases hai with hai | rfl
      · have := (Node.nearest?_eq_some_iff.1 hp).2.2 i hai hlt
        omega
      · omega
  · exact ⟨hindent.symm, hopen⟩
  · have := h.deeper i hgt him
    omega

/-- The lines of a chain all have the same end. -/
theorem Uniform.closedAt_eq (hu : Uniform links stop)
    (h : isOpenAt links i = true ∨ isClauseAt links i = true) : closedAt links i = stop := by
  cases hi : links[i]? with
  | none => simp [isOpenAt, isClauseAt, hi] at h
  | some link =>
    have hpart : link.part ≠ .whole := by
      intro hwhole
      simp [isOpenAt, isClauseAt, hi, isOpen, isClause, hwhole] at h
    rw [closedAt, hi]
    exact hu link (List.mem_of_getElem? hi) hpart

/-- A line and its siblings behind it, each with its own end, are written chain by chain. -/
theorem join_later (hplaced : WellPlaced links) (hu : Uniform links stop) (w : Nat → Text)
    (hj : j < links.length) (t : Text) :
    t ++ endAt links j ++ ((later links (Node.parent? (nodes links) j) j).map
        fun k => w k ++ endAt links k).flatten =
      join links ((j, t) :: (later links (Node.parent? (nodes links) j) j).map
        fun k => (k, w k)) := by
  induction hn : links.length - j using Nat.strongRecOn generalizing j t with
  | _ n ih =>
    obtain ⟨m, hm⟩ := exists_stops hj
    have hlt := hm.lt
    rcases later_cases hm with ⟨hlen, hparent, hlater⟩ | ⟨hlater, hgone⟩
    · have ih' (u : Text) := ih (links.length - m) (by omega) hlen u rfl
      rw [hparent] at ih'
      rw [hlater, List.map_cons, List.map_cons, List.flatten_cons]
      cases hclause : isClauseAt links m with
      | true =>
        -- The clause takes the place of the line; the end of the two is the same.
        obtain ⟨hindent, hopen⟩ := hplaced.next hm hlen hparent hclause
        have hend : endAt links j = [] := if_pos ((goneOn_iff hm).2 ⟨hclause, hindent⟩)
        have hclosed : closedAt links j = closedAt links m :=
          (hu.closedAt_eq (.inl hopen)).trans (hu.closedAt_eq (.inr hclause)).symm
        rw [hend, join_cons_clause hclause, join_congr hclosed, ← ih']
        simp only [List.append_assoc, List.nil_append]
      | false =>
        have hend : endAt links j = closedAt links j := by
          apply if_neg
          intro hgone
          exact absurd ((goneOn_iff hm).1 hgone).1 (by simp [hclause])
        rw [hend, join_cons_of_not_clause hclause, ← ih']
    · have hend : endAt links j = closedAt links j := if_neg (by simp [hgone])
      rw [hlater, hend, List.map_nil, List.map_nil, join_singleton, List.flatten_nil,
        List.append_nil]

/-- The lines of one parent are its first line and the siblings behind that. -/
theorem childrenIn_cases (links : List Link) (parent : Option Nat) (i n : Nat)
    (h : i + n = links.length) :
    Node.childrenIn (nodes links) parent i n = [] ∨
      ∃ j, j < links.length ∧ Node.parent? (nodes links) j = parent ∧
        Node.childrenIn (nodes links) parent i n = j :: later links parent j := by
  induction n generalizing i with
  | zero => exact .inl rfl
  | succ n ih =>
    rw [Nat.add_comm n 1, Node.childrenIn_add]
    by_cases hi : Node.parent? (nodes links) i = parent
    · right
      have hn : links.length - (i + 1) = n := by omega
      refine ⟨i, by omega, hi, ?_⟩
      rw [Node.childrenIn_one hi, later, hn]
      rfl
    · have hnone : Node.childrenIn (nodes links) parent i 1 = [] := by
        apply Node.childrenIn_eq_nil
        intro k hk hk'
        obtain rfl : k = i := by omega
        exact hi
      rw [hnone, List.nil_append]
      exact ih (i + 1) (by omega)

/-- So are all lines of one parent. -/
theorem join_children (hplaced : WellPlaced links) (hu : Uniform links stop) (w : Nat → Text)
    (parent : Option Nat) :
    ((Node.children (nodes links) parent).map fun k => w k ++ endAt links k).flatten =
      join links ((Node.children (nodes links) parent).map fun k => (k, w k)) := by
  rw [Node.children_eq, length_nodes]
  rcases childrenIn_cases links parent 0 links.length (Nat.zero_add _) with
    hnone | ⟨j, hj, rfl, hcons⟩
  · rw [hnone, List.map_nil, List.map_nil, join]
    rfl
  · rw [hcons, List.map_cons, List.map_cons, List.flatten_cons, join_later hplaced hu w hj (w j)]

/-- In the plain forest a line is written with its own end. -/
theorem renderAt_settled (hplaced : WellPlaced links) (hu : Uniform links stop)
    (hi : i < links.length) :
    Node.renderAt (settled links) i = renderAt links i ++ endAt links i := by
  induction hn : links.length - i using Nat.strongRecOn generalizing i with
  | _ n ih =>
    have hlink : links[i]? = some links[i] := List.getElem?_eq_getElem hi
    have hbelow : (Node.children (nodes links) (some i)).map (Node.renderAt (settled links)) =
        (Node.children (nodes links) (some i)).map
          fun k => renderAt links k ++ endAt links k := by
      apply List.map_congr_left
      intro k hk
      obtain ⟨hik, hklt⟩ := Node.lt_of_mem_children hk
      rw [length_nodes] at hklt
      exact ih (links.length - k) (by omega) hklt rfl
    rw [Node.renderAt_eq (getElem?_settled hlink), children_settled, hbelow,
      join_children hplaced hu, renderAt_eq hlink]

/-- A forest with chains is written like a plain one, in which each line has the end that is written
directly behind what is below it. -/
theorem render_settled (hplaced : WellPlaced links) (hu : Uniform links stop) :
    Node.render (settled links) = render links := by
  have hroots : (Node.children (nodes links) none).map (Node.renderAt (settled links)) =
      (Node.children (nodes links) none).map fun k => renderAt links k ++ endAt links k := by
    apply List.map_congr_left
    intro k hk
    rw [Node.children, List.mem_filter, List.mem_range, length_nodes] at hk
    exact renderAt_settled hplaced hu hk.1
  rw [Node.render, children_settled, hroots, join_children hplaced hu, render]

/-! ## One walk through the lines -/

/-- A line whose end is still to come. In a chain it stands for the newest line. -/
structure Pending where
  /-- The indentation of the line. -/
  indent : Nat
  /-- What is written at its end. -/
  closed : Text
  /-- Whether a clause may go on with it. -/
  goesOn : Bool
  deriving DecidableEq, Repr

/-- The line as one whose end is still to come. -/
def pending (link : Link) : Pending :=
  ⟨link.indent, link.closed, link.isOpen⟩

/-- Goes through the lines with a stack of open lines, the innermost first. A clause closes those
that are deeper than it, and takes the place of the next one. Any other line closes those that it is
not deeper than. -/
def resume : List Pending → List Link → Text
  | opened, [] => (opened.map Pending.closed).flatten
  | opened, link :: rest =>
    if link.isClause then
      ((opened.takeWhile (link.indent < ·.indent)).map Pending.closed).flatten ++ link.opened ++
        resume (link.pending :: (opened.dropWhile (link.indent < ·.indent)).tail) rest
    else
      ((opened.takeWhile (link.indent ≤ ·.indent)).map Pending.closed).flatten ++ link.opened ++
        resume (link.pending :: opened.dropWhile (link.indent ≤ ·.indent)) rest

/-- On the way through the lines, every clause finds an open line that it may go on with. -/
def Placed : List Pending → List Link → Prop
  | _, [] => True
  | opened, link :: rest =>
    if link.isClause then
      ∃ outer, opened.dropWhile (link.indent < ·.indent) =
          ⟨link.indent, link.closed, true⟩ :: outer ∧
        Placed (link.pending :: outer) rest
    else Placed (link.pending :: opened.dropWhile (link.indent ≤ ·.indent)) rest

/-- Inner lines are deeper than outer ones. -/
def Ordered (opened : List Pending) : Prop :=
  opened.Pairwise fun inner outer => outer.indent < inner.indent

variable {opened inner outer : List Pending} {rest : List Link}

/-- A line goes on top of the open lines that it is deeper than. -/
theorem Ordered.cons {top : Pending} (h : Ordered opened) (hsuffix : outer <:+ opened)
    (htop : ∀ o ∈ outer, o.indent < top.indent) : Ordered (top :: outer) :=
  List.pairwise_cons.2 ⟨htop, h.sublist hsuffix.sublist⟩

/-- Behind the first line that is less indented all are. -/
theorem Ordered.lt_of_mem_dropWhile (h : Ordered opened) {indent : Nat} {o : Pending}
    (ho : o ∈ opened.dropWhile (indent ≤ ·.indent)) : o.indent < indent := by
  induction opened with
  | nil => cases ho
  | cons top opened ih =>
    obtain ⟨htop, hrest⟩ := List.pairwise_cons.1 h
    by_cases hle : indent ≤ top.indent
    · rw [List.dropWhile_cons_of_pos (by simpa using hle)] at ho
      exact ih hrest ho
    · rw [List.dropWhile_cons_of_neg (by simpa using hle)] at ho
      rcases List.mem_cons.1 ho with rfl | ho
      · exact Nat.lt_of_not_le hle
      · exact Nat.lt_trans (htop o ho) (Nat.lt_of_not_le hle)

/-- The open lines as those of the plain forest, when the lines `rest` are still to come. -/
def plain (rest : List Link) (opened : List Pending) : List (Nat × Text) :=
  opened.map fun o => (o.indent, if goneOn o.indent rest then [] else o.closed)

/-- Deeper lines do not decide whether a line is gone on with. -/
theorem goneOn_cons_of_lt {level : Nat} (h : level < link.indent) (rest : List Link) :
    goneOn level (link :: rest) = goneOn level rest := by
  rw [goneOn, List.find?_cons_of_neg (by simpa using h)]
  rfl

/-- The first line that is not deeper decides it: it has to be a clause of the same indentation. -/
theorem goneOn_cons_of_le {level : Nat} (h : link.indent ≤ level) (rest : List Link) :
    goneOn level (link :: rest) = (link.isClause && link.indent == level) := by
  rw [goneOn, List.find?_cons_of_pos (by simpa using h)]
  rfl

/-- A line that is deeper than all open lines does not decide which of them end. -/
theorem plain_cons_of_lt (h : ∀ o ∈ opened, o.indent < link.indent) (rest : List Link) :
    plain (link :: rest) opened = plain rest opened := by
  apply List.map_congr_left
  intro o ho
  rw [goneOn_cons_of_lt (h o ho)]

/-- The open lines can be taken in two parts. -/
theorem plain_append (rest : List Link) (inner outer : List Pending) :
    plain rest (inner ++ outer) = plain rest inner ++ plain rest outer :=
  List.map_append

/-- What is written for open lines that no clause goes on with. -/
theorem closings_plain (h : ∀ o ∈ opened, goneOn o.indent rest = false) :
    ((plain rest opened).map Prod.snd).flatten = (opened.map Pending.closed).flatten := by
  rw [plain, List.map_map]
  congr 1
  apply List.map_congr_left
  intro o ho
  simp [h o ho]

/-- In the plain forest a line closes the open lines that it is not deeper than. -/
theorem resume_plain (hinner : ∀ o ∈ inner, link.indent ≤ o.indent)
    (houter : ∀ o ∈ outer, o.indent < link.indent) (rest : List Link) :
    Node.resume (plain (link :: rest) (inner ++ outer)) (settled (link :: rest)) =
      ((plain (link :: rest) inner).map Prod.snd).flatten ++ link.opened ++
        Node.resume (plain rest (link.pending :: outer)) (settled rest) := by
  have hclosed : ∀ o ∈ plain (link :: rest) inner, decide (link.indent ≤ o.1) = true := by
    intro o ho
    obtain ⟨o', ho', rfl⟩ := List.mem_map.1 ho
    simpa using hinner o' ho'
  have hkept : (plain rest outer).takeWhile (fun o => decide (link.indent ≤ o.1)) = [] ∧
      (plain rest outer).dropWhile (fun o => decide (link.indent ≤ o.1)) = plain rest outer := by
    cases outer with
    | nil => exact ⟨rfl, rfl⟩
    | cons o outer =>
      have ho := houter o List.mem_cons_self
      exact ⟨List.takeWhile_cons_of_neg (by simpa using ho),
        List.dropWhile_cons_of_neg (by simpa using ho)⟩
  rw [settled, Node.resume, plain_append, plain_cons_of_lt houter,
    List.takeWhile_append_of_pos hclosed, List.dropWhile_append_of_pos hclosed, hkept.1, hkept.2,
    List.append_nil]
  rfl

/-- The walk is the one through the plain forest. -/
theorem resume_eq_resume (h : Placed opened rest) (ho : Ordered opened) :
    resume opened rest = Node.resume (plain rest opened) (settled rest) := by
  induction rest generalizing opened with
  | nil =>
    rw [resume, settled, Node.resume, closings_plain]
    intro o _
    rfl
  | cons link rest ih =>
    rw [Placed] at h
    rw [resume]
    cases hclause : link.isClause with
    | true =>
      rw [hclause, if_pos rfl] at h
      obtain ⟨outer, hdrop, hplaced⟩ := h
      rw [if_pos rfl, hdrop, List.tail_cons]
      -- The deeper lines are closed; the line at the indentation of the clause has no end yet.
      have hdeeper : ∀ o ∈ opened.takeWhile (link.indent < ·.indent), link.indent < o.indent :=
        fun o hmem => by simpa using List.all_eq_true.1 List.all_takeWhile o hmem
      generalize hsplit : opened.takeWhile (link.indent < ·.indent) = inner at hdeeper
      obtain rfl : opened = inner ++ [⟨link.indent, link.closed, true⟩] ++ outer := by
        rw [← hsplit, List.append_assoc, List.singleton_append, ← hdrop,
          List.takeWhile_append_dropWhile]
      have hinner : ∀ o ∈ inner ++ [⟨link.indent, link.closed, true⟩], link.indent ≤ o.indent := by
        intro o hmem
        rcases List.mem_append.1 hmem with hmem | hmem
        · exact Nat.le_of_lt (hdeeper o hmem)
        · cases List.mem_singleton.1 hmem
          exact Nat.le_refl _
      have houter : ∀ o ∈ outer, o.indent < link.indent := by
        rw [List.append_assoc] at ho
        exact (List.pairwise_cons.1 (List.pairwise_append.1 ho).2.1).1
      have hclosings : ((plain (link :: rest)
          (inner ++ [⟨link.indent, link.closed, true⟩])).map Prod.snd).flatten =
            (inner.map Pending.closed).flatten := by
        have htop : goneOn link.indent (link :: rest) = true := by
          rw [goneOn_cons_of_le (Nat.le_refl _), hclause]
          simp
        rw [plain_append, List.map_append, List.flatten_append, closings_plain]
        · simp [plain, htop]
        · intro o hmem
          rw [goneOn_cons_of_le (Nat.le_of_lt (hdeeper o hmem))]
          simp [Nat.ne_of_lt (hdeeper o hmem)]
      rw [resume_plain hinner houter, hclosings,
        ih hplaced (ho.cons (List.suffix_append _ outer) houter)]
    | false =>
      rw [hclause, if_neg Bool.false_ne_true] at h
      rw [if_neg Bool.false_ne_true]
      have hinner : ∀ o ∈ opened.takeWhile (link.indent ≤ ·.indent), link.indent ≤ o.indent :=
        fun o hmem => by simpa using List.all_eq_true.1 List.all_takeWhile o hmem
      have houter : ∀ o ∈ opened.dropWhile (link.indent ≤ ·.indent), o.indent < link.indent :=
        fun o hmem => ho.lt_of_mem_dropWhile hmem
      have hclosings : ∀ o ∈ opened.takeWhile (link.indent ≤ ·.indent),
          goneOn o.indent (link :: rest) = false := by
        intro o hmem
        rw [goneOn_cons_of_le (hinner o hmem), hclause]
        rfl
      rw [ih h (ho.cons (List.dropWhile_suffix _) houter), ← closings_plain hclosings,
        ← resume_plain hinner houter, List.takeWhile_append_dropWhile]

/-! ## Clauses in their places -/

/-- For every bound, the nearest of the first `n` lines that is less indented than the bound is the
innermost open line that is. -/
def Tracks (links : List Link) (n : Nat) (opened : List Pending) : Prop :=
  ∀ bound, ((Node.nearest? (nodes links) bound n).bind (links[·]?)).map pending =
    opened.find? (·.indent < bound)

/-- No line is open at the start. -/
theorem tracks_zero (links : List Link) : Tracks links 0 [] :=
  fun _ => rfl

/-- The next line goes on top of open lines that are kept. -/
theorem Tracks.next {n : Nat} (h : Tracks links n opened) (hlink : links[n]? = some link)
    {dropped : List Pending} (hopened : opened = dropped ++ outer)
    (hdropped : ∀ o ∈ dropped, link.indent ≤ o.indent) :
    Tracks links (n + 1) (link.pending :: outer) := by
  intro bound
  rw [Node.nearest?, indentAt_nodes hlink]
  by_cases hlt : link.indent < bound
  · have hfound : decide (link.pending.indent < bound) = true := decide_eq_true hlt
    rw [if_pos hlt, List.find?_cons_of_pos (by exact hfound), Option.bind_some, hlink,
      Option.map_some]
  · have hnone : dropped.find? (·.indent < bound) = none := by
      rw [List.find?_eq_none]
      intro o ho
      have := hdropped o ho
      simp only [decide_eq_true_eq]
      omega
    have hpassed : ¬ decide (link.pending.indent < bound) = true := by
      rw [decide_eq_true_eq]
      exact hlt
    rw [if_neg hlt, List.find?_cons_of_neg (by exact hpassed), h bound, hopened,
      List.find?_append, hnone, Option.none_or]

/-- The line that a clause goes on with is the innermost open line that is not deeper. -/
theorem Tracks.find?_of_clause {n : Nat} (h : Tracks links n opened) (hplaced : WellPlaced links)
    (hu : Uniform links stop) (hlink : links[n]? = some link) (hclause : link.isClause = true) :
    opened.find? (·.indent < link.indent + 1) = some ⟨link.indent, link.closed, true⟩ := by
  have hclauseAt : isClauseAt links n = true := by simp [isClauseAt, hlink, hclause]
  obtain ⟨i, hi, hindent, hopen⟩ := hplaced n (List.getElem?_eq_some_iff.1 hlink).1 hclauseAt
  have hclosed := (hu.closedAt_eq (.inl hopen)).trans (hu.closedAt_eq (.inr hclauseAt)).symm
  cases htop : links[i]? with
  | none => simp [isOpenAt, htop] at hopen
  | some top =>
    have hopen' : top.isOpen = true := by simpa [isOpenAt, htop] using hopen
    have hclosed' : top.closed = link.closed := by simpa [closedAt, htop, hlink] using hclosed
    rw [indentAt_nodes hlink] at hi hindent
    rw [indentAt_nodes htop] at hindent
    rw [← h, Option.mem_def.1 hi, Option.bind_some, htop, Option.map_some, pending, hindent,
      hclosed', hopen']

/-- Clauses that are well placed are so on the way through the lines. -/
theorem placed_of_tracks (hplaced : WellPlaced links) (hu : Uniform links stop)
    {before : List Link} (hlinks : links = before ++ rest)
    (htracks : Tracks links before.length opened) (ho : Ordered opened) : Placed opened rest := by
  induction rest generalizing before opened with
  | nil => trivial
  | cons link rest ih =>
    have hlink : links[before.length]? = some link := by simp [hlinks]
    have hnext : links = before ++ [link] ++ rest := by simp [hlinks]
    have hlen : (before ++ [link]).length = before.length + 1 := List.length_append
    rw [Placed]
    cases hclause : link.isClause with
    | true =>
      rw [if_pos rfl]
      obtain ⟨-, inner, outer, rfl, hinner⟩ := List.find?_eq_some_iff_append.1
        (htracks.find?_of_clause hplaced hu hlink hclause)
      have hdeeper : ∀ o ∈ inner, link.indent < o.indent := by
        intro o hmem
        simpa [Nat.lt_succ_iff] using hinner o hmem
      refine ⟨outer, ?_, ih hnext ?_ ?_⟩
      · rw [List.dropWhile_append_of_pos (by simpa using hdeeper),
          List.dropWhile_cons_of_neg (by simp)]
      · rw [hlen]
        apply htracks.next hlink (List.append_cons inner _ outer)
        intro o hmem
        rcases List.mem_append.1 hmem with hmem | hmem
        · exact Nat.le_of_lt (hdeeper o hmem)
        · cases List.mem_singleton.1 hmem
          exact Nat.le_refl _
      · have htail := (List.pairwise_append.1 ho).2.1
        exact List.pairwise_cons.2 (List.pairwise_cons.1 htail)
    | false =>
      rw [if_neg Bool.false_ne_true]
      have hdropped : ∀ o ∈ opened.takeWhile (link.indent ≤ ·.indent), link.indent ≤ o.indent :=
        fun o hmem => by simpa using List.all_eq_true.1 List.all_takeWhile o hmem
      apply ih hnext
      · rw [hlen]
        exact htracks.next hlink List.takeWhile_append_dropWhile.symm hdropped
      · exact ho.cons (List.dropWhile_suffix _) fun o hmem => ho.lt_of_mem_dropWhile hmem

/-- Where every clause is in its place, it finds its line on the way through. -/
theorem WellPlaced.placed (hplaced : WellPlaced links) (hu : Uniform links stop) :
    Placed [] links :=
  placed_of_tracks hplaced hu (List.nil_append links).symm (tracks_zero links) .nil

/-- The walk writes the forest, chain by chain. -/
theorem resume_eq_render (hplaced : WellPlaced links) (hu : Uniform links stop) :
    resume [] links = render links := by
  rw [resume_eq_resume (hplaced.placed hu) .nil, ← render_settled hplaced hu]
  exact Node.resume_eq_render (settled links)

end Link

end TerseMarkup
