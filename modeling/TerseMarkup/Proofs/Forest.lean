import TerseMarkup.Text

/-!
# Forests by indentation

A list of lines, each with an indentation and with texts to write at its start and at its end, is a
forest: the parent of a line is the nearest line before it that is less indented. `Node.parent?` and
`Node.render` say this with line numbers, line by line.

A compiler goes through the lines once, and knows only the lines that are still open.
`Node.resume` is such a walk. `Node.resume_eq_render` shows that it writes the forest. Between the
two stands `Node.renderNested`, which cuts a list of lines into its first line, the lines below that
one, and the others.
-/

namespace TerseMarkup

/-- A line as part of a forest. -/
structure Node where
  /-- The indentation of the line. -/
  indent : Nat
  /-- What is written at its start. -/
  opened : Text
  /-- What is written at its end, behind its children. -/
  closed : Text
  deriving DecidableEq, Repr

namespace Node

/-! ## The forest, line by line -/

/-- The indentation of the line with a given number. -/
def indentAt (nodes : List Node) (i : Nat) : Nat :=
  (nodes[i]?.map Node.indent).getD 0

/-- The nearest line before `i` that is less indented than `bound`. -/
def nearest? (nodes : List Node) (bound : Nat) : (i : Nat) → Option Nat
  | 0 => none
  | i + 1 => if indentAt nodes i < bound then some i else nearest? nodes bound i

/-- The parent of a line is the nearest line before it that is less indented. -/
def parent? (nodes : List Node) (i : Nat) : Option Nat :=
  nearest? nodes (indentAt nodes i) i

/-- The lines with a given parent, or the lines without one, in their order. -/
def children (nodes : List Node) (parent : Option Nat) : List Nat :=
  (List.range nodes.length).filter (parent? nodes · = parent)

/-- The nearest line that is less indented, by what lies in between. -/
theorem nearest?_eq_some_iff {nodes : List Node} {bound i a : Nat} :
    nearest? nodes bound i = some a ↔
      a < i ∧ indentAt nodes a < bound ∧ ∀ k, a < k → k < i → bound ≤ indentAt nodes k := by
  induction i with
  | zero => simp [nearest?]
  | succ i ih =>
    unfold nearest?
    split
    · rename_i hlt
      constructor
      · intro h
        cases h
        exact ⟨Nat.lt_succ_self _, hlt, fun k hk hk' => by omega⟩
      · rintro ⟨hai, -, hbetween⟩
        rcases Nat.lt_or_eq_of_le (Nat.le_of_lt_succ hai) with hlt' | rfl
        · have := hbetween i hlt' (Nat.lt_succ_self i)
          omega
        · rfl
    · rename_i hge
      rw [ih]
      constructor
      · rintro ⟨hai, hlt, hbetween⟩
        refine ⟨Nat.lt_succ_of_lt hai, hlt, fun k hk hk' => ?_⟩
        rcases Nat.lt_or_eq_of_le (Nat.le_of_lt_succ hk') with hlt' | rfl
        · exact hbetween k hk hlt'
        · exact Nat.le_of_not_lt hge
      · rintro ⟨hai, hlt, hbetween⟩
        refine ⟨?_, hlt, fun k hk hk' => hbetween k hk (Nat.lt_succ_of_lt hk')⟩
        rcases Nat.lt_or_eq_of_le (Nat.le_of_lt_succ hai) with hlt' | rfl
        · exact hlt'
        · exact absurd hlt hge

/-- There is none if no line before is less indented. -/
theorem nearest?_eq_none_iff {nodes : List Node} {bound i : Nat} :
    nearest? nodes bound i = none ↔ ∀ k, k < i → bound ≤ indentAt nodes k := by
  induction i with
  | zero => simp [nearest?]
  | succ i ih =>
    unfold nearest?
    split
    · rename_i hlt
      constructor
      · intro h
        cases h
      · intro h
        have := h i (Nat.lt_succ_self i)
        omega
    · rename_i hge
      rw [ih]
      constructor
      · intro h k hk
        rcases Nat.lt_or_eq_of_le (Nat.le_of_lt_succ hk) with hlt | rfl
        · exact h k hlt
        · exact Nat.le_of_not_lt hge
      · exact fun h k hk => h k (Nat.lt_succ_of_lt hk)

/-- The lines below a line come after it. -/
theorem lt_of_mem_children {nodes : List Node} {i j : Nat} (h : j ∈ children nodes (some i)) :
    i < j ∧ j < nodes.length := by
  unfold children at h
  rw [List.mem_filter, List.mem_range, decide_eq_true_eq] at h
  exact ⟨(nearest?_eq_some_iff.1 h.2).1, h.1⟩

/-- What is written for a line: its start, its children, and its end. -/
def renderAt (nodes : List Node) (i : Nat) : Text :=
  match nodes[i]? with
  | none => []
  | some node =>
    node.opened ++ ((children nodes (some i)).attach.map fun ⟨j, _⟩ => renderAt nodes j).flatten ++
      node.closed
termination_by nodes.length - i
decreasing_by
  rename_i h
  have := lt_of_mem_children h
  omega

/-- What is written for the whole forest. -/
def render (nodes : List Node) : Text :=
  ((children nodes none).map (renderAt nodes)).flatten

/-- A line is written with its start, the lines below it, and its end. -/
theorem renderAt_eq {nodes : List Node} {i : Nat} {node : Node} (h : nodes[i]? = some node) :
    renderAt nodes i =
      node.opened ++ ((children nodes (some i)).map (renderAt nodes)).flatten ++ node.closed := by
  rw [renderAt, h]
  simp only [List.map_attach_eq_pmap, List.pmap_eq_map]

/-! ## The forest, line after line -/

/-- Whether a line is deeper than `level`. -/
def isDeeper (level : Nat) (node : Node) : Bool :=
  level < node.indent

/-- What is written for a list of lines: the first of them with the deeper ones that follow it, and
then the others. -/
def renderNested : List Node → Text
  | [] => []
  | node :: rest =>
    node.opened ++ renderNested (rest.takeWhile (isDeeper node.indent)) ++ node.closed ++
      renderNested (rest.dropWhile (isDeeper node.indent))
termination_by nodes => nodes.length
decreasing_by
  · exact Nat.lt_succ_of_le (List.takeWhile_sublist _).length_le
  · exact Nat.lt_succ_of_le (List.dropWhile_sublist _).length_le

/-- The lines from `i` up to `j` are all that is left of the lines below `parent`, or of the whole
forest, and no line that was dropped is a parent of the first one. -/
structure Below (nodes : List Node) (parent : Option Nat) (i j : Nat) : Prop where
  /-- The lines after the parent are deeper. -/
  deeper : ∀ a, parent = some a → a < i ∧ ∀ k, a < k → k < j → indentAt nodes a < indentAt nodes k
  /-- The lines between the parent and `i` are as deep as line `i`. -/
  first : i < j → ∀ k, (∀ a, parent = some a → a < k) → k < i → indentAt nodes i ≤ indentAt nodes k
  /-- The line `j` is not below the parent any more. -/
  stop : j < nodes.length → ∃ a, parent = some a ∧ indentAt nodes j ≤ indentAt nodes a

section

variable {nodes : List Node} {parent : Option Nat} {i j m : Nat}

/-- The first line that is left is a child of the parent. -/
theorem Below.parent?_first (h : Below nodes parent i j) (hij : i < j) :
    parent? nodes i = parent := by
  cases parent with
  | none => exact nearest?_eq_none_iff.2 fun k hk => h.first hij k (fun a ha => nomatch ha) hk
  | some a =>
    obtain ⟨hai, hdeeper⟩ := h.deeper a rfl
    refine nearest?_eq_some_iff.2 ⟨hai, hdeeper i hai hij, fun k hak hki => ?_⟩
    refine h.first hij k (fun b hb => ?_) hki
    cases hb
    exact hak

/-- The lines that follow line `i` and are deeper than it are below it. -/
theorem Below.inner (h : Below nodes parent i j) (hij : i < j) (hmj : m ≤ j)
    (hdeep : ∀ k, i < k → k < m → indentAt nodes i < indentAt nodes k)
    (hstop : m < j → indentAt nodes m ≤ indentAt nodes i) : Below nodes (some i) (i + 1) m where
  deeper a ha := by
    cases ha
    exact ⟨Nat.lt_succ_self i, hdeep⟩
  first _ k hk hki := by
    have := hk i rfl
    omega
  stop hm := by
    refine ⟨i, rfl, ?_⟩
    rcases Nat.lt_or_eq_of_le hmj with hlt | rfl
    · exact hstop hlt
    · -- The line after all of them is not below the parent, and the parent is less indented.
      obtain ⟨a, rfl, hle⟩ := h.stop hm
      obtain ⟨hai, hdeeper⟩ := h.deeper a rfl
      exact Nat.le_trans hle (Nat.le_of_lt (hdeeper i hai hij))

/-- The lines that follow those are below the parent of line `i`. -/
theorem Below.next (h : Below nodes parent i j) (hij : i < j) (him : i < m)
    (hdeep : ∀ k, i < k → k < m → indentAt nodes i < indentAt nodes k)
    (hstop : m < j → indentAt nodes m ≤ indentAt nodes i) : Below nodes parent m j where
  deeper a ha := ⟨Nat.lt_trans (h.deeper a ha).1 him, (h.deeper a ha).2⟩
  first hmj k hk hkm := by
    have hm := hstop hmj
    rcases Nat.lt_trichotomy k i with hlt | rfl | hgt
    · exact Nat.le_trans hm (h.first hij k hk hlt)
    · exact hm
    · exact Nat.le_trans hm (Nat.le_of_lt (hdeep k hgt hkm))
  stop := h.stop

/-- A line below line `i` does not have a parent in front of line `i`. -/
theorem parent?_ne_of_deeper (hparent : ∀ a, parent = some a → a < i)
    (hdeep : ∀ k, i < k → k < m → indentAt nodes i < indentAt nodes k) {k : Nat} (hik : i < k)
    (hkm : k < m) : parent? nodes k ≠ parent := by
  have hlt := hdeep k hik hkm
  intro heq
  cases parent with
  | none =>
    have := nearest?_eq_none_iff.1 heq i hik
    omega
  | some a =>
    have := (nearest?_eq_some_iff.1 heq).2.2 i (hparent a rfl) hik
    omega

/-- From the first line on that is not deeper than line `i`, no line has the parent `i`. -/
theorem parent?_ne_of_stop (him : i < m) (hstop : m < nodes.length →
    indentAt nodes m ≤ indentAt nodes i) {k : Nat} (hmk : m ≤ k) (hk : k < nodes.length) :
    parent? nodes k ≠ some i := by
  intro heq
  obtain ⟨-, hlt, hbetween⟩ := nearest?_eq_some_iff.1 heq
  have hm := hstop (Nat.lt_of_le_of_lt hmk hk)
  rcases Nat.lt_or_eq_of_le hmk with hlt' | rfl
  · have := hbetween m him hlt'
    omega
  · omega

end

/-- The numbers of the lines from `i` up to `i + n` that have a given parent. -/
def childrenIn (nodes : List Node) (parent : Option Nat) (i n : Nat) : List Nat :=
  (List.range' i n).filter (parent? nodes · = parent)

/-- Children are collected range by range. -/
theorem childrenIn_add (nodes : List Node) (parent : Option Nat) (i m n : Nat) :
    childrenIn nodes parent i (m + n) =
      childrenIn nodes parent i m ++ childrenIn nodes parent (i + m) n := by
  unfold childrenIn
  rw [← List.range'_append_1, List.filter_append]

/-- A range without children has none to collect. -/
theorem childrenIn_eq_nil {nodes : List Node} {parent : Option Nat} {i n : Nat}
    (h : ∀ k, i ≤ k → k < i + n → parent? nodes k ≠ parent) : childrenIn nodes parent i n = [] := by
  refine List.filter_eq_nil_iff.2 fun k hk => ?_
  rw [List.mem_range'_1] at hk
  simpa using h k hk.1 hk.2

/-- A range of one child. -/
theorem childrenIn_one {nodes : List Node} {parent : Option Nat} {i : Nat}
    (h : parent? nodes i = parent) : childrenIn nodes parent i 1 = [i] := by
  simp [childrenIn, h]

/-- The children in the whole forest. -/
theorem children_eq (nodes : List Node) (parent : Option Nat) :
    children nodes parent = childrenIn nodes parent 0 nodes.length := by
  unfold children childrenIn
  rw [List.range_eq_range']

/-- All children of line `i` are among the deeper lines that follow it. -/
theorem children_eq_childrenIn {nodes : List Node} {i n : Nat} (hn : i + 1 + n ≤ nodes.length)
    (hstop : i + 1 + n < nodes.length → indentAt nodes (i + 1 + n) ≤ indentAt nodes i) :
    children nodes (some i) = childrenIn nodes (some i) (i + 1) n := by
  obtain ⟨r, hr⟩ := Nat.exists_eq_add_of_le hn
  have hfront : childrenIn nodes (some i) 0 (i + 1) = [] := by
    refine childrenIn_eq_nil fun k _ hk heq => ?_
    have := (nearest?_eq_some_iff.1 heq).1
    omega
  have hback : childrenIn nodes (some i) (i + 1 + n) r = [] :=
    childrenIn_eq_nil fun k hk hk' => parent?_ne_of_stop (by omega) hstop hk (by omega)
  rw [children_eq, hr, childrenIn_add, childrenIn_add, hfront, Nat.zero_add, Nat.zero_add, hback,
    List.nil_append, List.append_nil]

/-- The indentation of a line behind others. -/
theorem indentAt_append (front back : List Node) (m : Nat) :
    indentAt (front ++ back) (front.length + m) = indentAt back m := by
  unfold indentAt
  rw [List.getElem?_append_right (Nat.le_add_right _ _), Nat.add_sub_cancel_left]

/-- The lines that are taken as deeper are deeper. -/
theorem lt_indentAt_of_takeWhile {level m : Nat} {rest : List Node} (back : List Node)
    (h : m < (rest.takeWhile (isDeeper level)).length) : level < indentAt (rest ++ back) m := by
  induction rest generalizing m with
  | nil => exact absurd h (Nat.not_lt_zero m)
  | cons node rest ih =>
    by_cases hdeep : isDeeper level node = true
    · rw [List.takeWhile_cons_of_pos hdeep, List.length_cons] at h
      cases m with
      | zero => simpa [isDeeper, indentAt] using hdeep
      | succ m => exact ih (Nat.lt_of_succ_lt_succ h)
    · rw [List.takeWhile_cons_of_neg hdeep] at h
      exact absurd h (Nat.not_lt_zero m)

/-- The first line that is not taken is not deeper. -/
theorem indentAt_takeWhile_le {level : Nat} {rest : List Node} (back : List Node)
    (h : (rest.takeWhile (isDeeper level)).length < rest.length) :
    indentAt (rest ++ back) (rest.takeWhile (isDeeper level)).length ≤ level := by
  induction rest with
  | nil => exact absurd h (Nat.not_lt_zero 0)
  | cons node rest ih =>
    by_cases hdeep : isDeeper level node = true
    · rw [List.takeWhile_cons_of_pos hdeep] at h ⊢
      exact ih (Nat.lt_of_succ_lt_succ h)
    · rw [List.takeWhile_cons_of_neg hdeep]
      simpa [isDeeper, indentAt] using hdeep

section

variable {nodes before rest after : List Node} {node : Node}

/-- The line behind the lines in front. -/
theorem getElem?_of_cut (hnodes : nodes = before ++ node :: rest ++ after) :
    nodes[before.length]? = some node := by
  simp [hnodes]

/-- The indentations of a line and of those behind it. -/
theorem indentAt_of_cut (hnodes : nodes = before ++ node :: rest ++ after) :
    indentAt nodes before.length = node.indent ∧
      ∀ m, indentAt nodes (before.length + 1 + m) = indentAt (rest ++ after) m := by
  constructor
  · simp [indentAt, getElem?_of_cut hnodes]
  · intro m
    have hcut : nodes = (before ++ [node]) ++ (rest ++ after) := by simp [hnodes]
    have hlen : (before ++ [node]).length = before.length + 1 := List.length_append
    rw [hcut, ← hlen, indentAt_append]

/-- The lines that a line takes are deeper than it. -/
theorem deeper_of_cut (hnodes : nodes = before ++ node :: rest ++ after) (k : Nat)
    (hk : before.length < k)
    (hk' : k < before.length + 1 + (rest.takeWhile (isDeeper node.indent)).length) :
    indentAt nodes before.length < indentAt nodes k := by
  obtain ⟨hself, hshift⟩ := indentAt_of_cut hnodes
  obtain ⟨m, rfl⟩ := Nat.exists_eq_add_of_le hk
  rw [hself, Nat.succ_eq_add_one, hshift]
  exact lt_indentAt_of_takeWhile after (Nat.lt_of_add_lt_add_left hk')

/-- The line at which it stops is not. -/
theorem stop_of_cut (hnodes : nodes = before ++ node :: rest ++ after)
    (hlt : before.length + 1 + (rest.takeWhile (isDeeper node.indent)).length <
      before.length + (node :: rest).length) :
    indentAt nodes (before.length + 1 + (rest.takeWhile (isDeeper node.indent)).length) ≤
      indentAt nodes before.length := by
  obtain ⟨hself, hshift⟩ := indentAt_of_cut hnodes
  rw [hself, hshift]
  refine indentAt_takeWhile_le after ?_
  rw [List.length_cons] at hlt
  omega

end

/-- The lines of a part of the forest that is all below one parent are written as its children. -/
theorem renderNested_eq {nodes before segment after : List Node} {parent : Option Nat}
    (hnodes : nodes = before ++ segment ++ after)
    (h : Below nodes parent before.length (before.length + segment.length)) :
    renderNested segment =
      ((childrenIn nodes parent before.length segment.length).map (renderAt nodes)).flatten := by
  fun_induction renderNested segment generalizing before after parent with
  | case1 => rfl
  | case2 node rest ih₁ ih₂ =>
    have hat := getElem?_of_cut hnodes
    have hdeep := deeper_of_cut hnodes
    have hstop := stop_of_cut hnodes
    have hrest : rest.takeWhile (isDeeper node.indent) ++ rest.dropWhile (isDeeper node.indent) =
      rest := List.takeWhile_append_dropWhile
    generalize rest.takeWhile (isDeeper node.indent) = inner at *
    generalize rest.dropWhile (isDeeper node.indent) = outer at *
    subst hrest
    -- The list is cut behind the line, and behind the deeper lines that follow it.
    have hcut₁ : nodes = before ++ [node] ++ inner ++ (outer ++ after) := by simp [hnodes]
    have hcut₂ : nodes = before ++ [node] ++ inner ++ outer ++ after := by simp [hnodes]
    have hfront₁ : (before ++ [node]).length = before.length + 1 := List.length_append
    have hfront₂ : (before ++ [node] ++ inner).length = before.length + 1 + inner.length := by
      rw [List.length_append, hfront₁]
    have hlen : (node :: (inner ++ outer)).length = 1 + inner.length + outer.length := by
      rw [List.length_cons, List.length_append]
      omega
    have htotal : before.length + 1 + inner.length ≤ nodes.length := by
      rw [hcut₁, List.length_append, hfront₂]
      exact Nat.le_add_right _ _
    rw [hlen] at h hstop ⊢
    have hij : before.length < before.length + (1 + inner.length + outer.length) := by omega
    have hinner := h.inner hij (by omega) hdeep hstop
    have houter := h.next hij (by omega) hdeep hstop
    -- The line itself is a child, the deeper lines are not, and the others are as before.
    have hself := childrenIn_one (h.parent?_first hij)
    have hnone : childrenIn nodes parent (before.length + 1) inner.length = [] :=
      childrenIn_eq_nil fun k hk hk' =>
        parent?_ne_of_deeper (fun a ha => (h.deeper a ha).1) hdeep hk hk'
    have hchildren : children nodes (some before.length) =
        childrenIn nodes (some before.length) (before.length + 1) inner.length := by
      refine children_eq_childrenIn htotal fun hlt => ?_
      obtain ⟨a, ha, hle⟩ := hinner.stop hlt
      cases ha
      exact hle
    have hend : before.length + (1 + inner.length + outer.length) =
        before.length + 1 + inner.length + outer.length := by omega
    rw [hend] at houter
    rw [ih₁ hcut₁ (by rwa [hfront₁]), ih₂ hcut₂ (by rwa [hfront₂]), hfront₁, hfront₂,
      childrenIn_add, childrenIn_add, hself, hnone, List.append_nil, List.map_append,
      List.flatten_append, List.map_singleton, List.flatten_singleton, renderAt_eq hat, hchildren,
      Nat.add_assoc]

/-- The whole forest. -/
theorem renderNested_eq_render (nodes : List Node) : renderNested nodes = render nodes := by
  have hnodes : nodes = [] ++ nodes ++ [] := by simp
  have hbelow : Below nodes none ([] : List Node).length (0 + nodes.length) := by
    constructor
    · intro a ha
      cases ha
    · intro _ k _ hk
      exact absurd hk (Nat.not_lt_zero k)
    · intro hlt
      omega
  rw [renderNested_eq hnodes hbelow, render, children_eq]
  rfl

/-! ## One walk through the lines -/

/-- Goes through the lines with a stack of open lines, the innermost first, each with its
indentation and what is written at its end. A line closes those that it is not deeper than. -/
def resume : List (Nat × Text) → List Node → Text
  | opened, [] => (opened.map Prod.snd).flatten
  | opened, node :: rest =>
    ((opened.takeWhile fun (level, _) => node.indent ≤ level).map Prod.snd).flatten ++
      node.opened ++
      resume ((node.indent, node.closed) :: opened.dropWhile fun (level, _) => node.indent ≤ level)
        rest

/-- Taking the deeper lines off in two goes is the same as in one. -/
theorem takeWhile_isDeeper {l m : Nat} (h : l < m) (rest : List Node) :
    (rest.takeWhile (isDeeper l)).takeWhile (isDeeper m) = rest.takeWhile (isDeeper m) ∧
      (rest.takeWhile (isDeeper l)).dropWhile (isDeeper m) =
        (rest.dropWhile (isDeeper m)).takeWhile (isDeeper l) ∧
      rest.dropWhile (isDeeper l) = (rest.dropWhile (isDeeper m)).dropWhile (isDeeper l) := by
  induction rest with
  | nil => exact ⟨rfl, rfl, rfl⟩
  | cons node rest ih =>
    by_cases hm : m < node.indent
    · have hl : l < node.indent := Nat.lt_trans h hm
      simpa [isDeeper, hl, hm] using ih
    · by_cases hl : l < node.indent <;> simp [isDeeper, hl, hm]

/-- An open line takes the deeper lines and is closed then. -/
theorem resume_cons (level : Nat) (closed : Text) (opened : List (Nat × Text))
    (nodes : List Node) :
    resume ((level, closed) :: opened) nodes =
      renderNested (nodes.takeWhile (isDeeper level)) ++ closed ++
        resume opened (nodes.dropWhile (isDeeper level)) := by
  induction hn : nodes.length using Nat.strongRecOn generalizing level closed opened nodes with
  | _ n ih =>
    cases nodes with
    | nil => simp [resume, renderNested]
    | cons node rest =>
      by_cases hdeep : level < node.indent
      · -- The line is opened below the open one; both take what is theirs of the rest.
        obtain ⟨hinner, houter, hafter⟩ := takeWhile_isDeeper hdeep rest
        have hlt : rest.length < n := by
          rw [← hn]
          exact Nat.lt_succ_self _
        have hlt' : (rest.dropWhile (isDeeper node.indent)).length < n :=
          Nat.lt_of_le_of_lt (List.dropWhile_sublist _).length_le hlt
        have hkeep : ¬ node.indent ≤ level := Nat.not_le.2 hdeep
        have hstart : resume ((level, closed) :: opened) (node :: rest) = node.opened ++
            resume ((node.indent, node.closed) :: (level, closed) :: opened) rest := by
          simp [resume, hkeep]
        rw [hstart, ih _ hlt _ _ _ rest rfl, ih _ hlt' _ _ _ _ rfl,
          List.takeWhile_cons_of_pos (by simpa [isDeeper] using hdeep),
          List.dropWhile_cons_of_pos (by simpa [isDeeper] using hdeep), renderNested, hinner,
          houter, hafter]
        simp only [List.append_assoc]
      · have hclose : node.indent ≤ level := Nat.le_of_not_lt hdeep
        simp [resume, renderNested, isDeeper, hdeep, hclose]

/-- The walk writes the forest. -/
theorem resume_eq_render (nodes : List Node) : resume [] nodes = render nodes := by
  rw [← renderNested_eq_render]
  induction hn : nodes.length using Nat.strongRecOn generalizing nodes with
  | _ n ih =>
    cases nodes with
    | nil => simp [resume, renderNested]
    | cons node rest =>
      have hlt : (rest.dropWhile (isDeeper node.indent)).length < n := by
        rw [← hn]
        exact Nat.lt_succ_of_le (List.dropWhile_sublist _).length_le
      rw [resume, renderNested, ← ih _ hlt _ rfl]
      simp [resume_cons]

end Node

end TerseMarkup
