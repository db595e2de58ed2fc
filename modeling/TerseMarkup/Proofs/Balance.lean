import TerseMarkup.Proofs.Layout
import TerseMarkup.Proofs.Moves

/-!
# Balance of groups

Inside a group a line is cut into pieces: marks, which turn the depth, and string literals and
single characters, which leave it as it is (`Nesting.first?`). Where a piece ends does not depend on
the depth, so the depth after some pieces is a sum over them (`Piece.changes`), with a sign.

A group is read from its opening sequence to the first piece at which this sum is zero, over as many
lines as that takes (`Nesting.IsGroup`). If there is no such piece in the lines that are left, the
group is not closed (`Nesting.Unclosed`).

* `Nesting.close_more`, `Nesting.close_last` and `Nesting.close_pull`: the steps inside a group, in
  terms of pieces. The counter is natural, but it agrees with the sum as long as that is positive.
* `Piece.exists_returns`: the sum is zero somewhere, or it is positive everywhere.
* `Nesting.close_of_reads` and `Nesting.close_ends`: the runs that come to an end of the group, and
  the two ways in which any run ends.
* `Nesting.group?_balances`: what looking for a group comes to.
-/

namespace TerseMarkup

/-! ## Terminators -/

/-- The terminator of a line lies behind a front that does not reach into it. -/
theorem Text.dropTerminator_append_of_getLast? {x y : Text}
    (hfeed : y = [] → x.getLast? ≠ some '\n') (hreturn : y = ['\n'] → x.getLast? ≠ some '\r') :
    (x ++ y).dropTerminator = x ++ y.dropTerminator := by
  rcases List.eq_nil_or_concat y with rfl | ⟨z, c, rfl⟩
  · simp [dropTerminator, hfeed rfl]
  · by_cases hc : c = '\n'
    · subst hc
      rcases List.eq_nil_or_concat z with rfl | ⟨z, d, rfl⟩
      · simp [dropTerminator, hreturn rfl]
      · by_cases hd : d = '\r'
        · simp [dropTerminator, hd]
        · simp [dropTerminator, hd]
    · simp [dropTerminator, hc]

/-- A string literal ends in a quote, so it does not reach into the terminator of its line. -/
theorem Text.dropTerminator_of_quoted? {t q rest : Text} (h : t.quoted? = some (q, rest)) :
    t.dropTerminator = q ++ rest.dropTerminator := by
  obtain ⟨mark, hmem, -, hlast⟩ := exists_mark_of_quoted? h
  have hmarks : ∀ mark ∈ quoteMarks,
      mark.getLast? ≠ some '\n' ∧ mark.getLast? ≠ some '\r' := by decide
  obtain ⟨hfeed, hreturn⟩ := hlast ▸ hmarks mark hmem
  rw [eq_append_of_quoted? h]
  exact dropTerminator_append_of_getLast? (fun _ => hfeed) fun _ => hreturn

/-! ## Pieces -/

/-- A piece of a line inside a group. -/
structure Piece where
  /-- The text of the piece. -/
  text : Text
  /-- Where the depth goes, if the piece is a mark. -/
  turn : Option Turn
  deriving DecidableEq, Repr

namespace Piece

/-- What a piece does to the depth. -/
def change (p : Piece) : Int :=
  match p.turn with
  | none => 0
  | some .deeper => 1
  | some .back => -1

/-- What pieces do to the depth, taken together. -/
def changes (ps : List Piece) : Int :=
  ps.foldr (fun p n => p.change + n) 0

/-- The text that pieces make up. -/
def texts (ps : List Piece) : Text :=
  ps.flatMap text

variable (p : Piece) (ps : List Piece)

@[simp] theorem changes_nil : changes [] = 0 := rfl

@[simp] theorem changes_cons : changes (p :: ps) = p.change + changes ps := rfl

@[simp] theorem texts_nil : texts [] = [] := rfl

@[simp] theorem texts_cons : texts (p :: ps) = p.text ++ texts ps := rfl

@[simp] theorem change_plain (t : Text) : change ⟨t, none⟩ = 0 := rfl

@[simp] theorem change_deeper (t : Text) : change ⟨t, some .deeper⟩ = 1 := rfl

@[simp] theorem change_back (t : Text) : change ⟨t, some .back⟩ = -1 := rfl

/-- No piece leads back by more than one. -/
theorem neg_one_le_change : -1 ≤ p.change := by
  obtain ⟨text, turn⟩ := p
  cases turn with
  | none => simp
  | some turn => cases turn <;> simp

/-- From the given depth, the depth comes to zero with the last of the pieces and is positive before
that. -/
structure Returns (depth : Int) (ps : List Piece) : Prop where
  zero : depth + changes ps = 0
  before : ∀ f b, ps = f ++ b → b ≠ [] → 1 ≤ depth + changes f

variable {p ps} {depth : Int}

/-- It takes at least one piece to lead back from a positive depth. -/
theorem Returns.ne_nil (h : Returns depth ps) (hpos : 1 ≤ depth) : ps ≠ [] := by
  rintro rfl
  have hzero := h.zero
  rw [changes_nil] at hzero
  omega

/-- A single piece can lead back. -/
theorem Returns.single (hpos : 1 ≤ depth) (hzero : depth + p.change = 0) : Returns depth [p] := by
  refine ⟨by simpa using hzero, fun f b hf hb => ?_⟩
  obtain rfl : f = [] := by
    rcases List.append_eq_singleton_iff.1 hf.symm with ⟨h, -⟩ | ⟨-, h⟩
    · exact h
    · exact absurd h hb
  simpa using hpos

/-- A piece can be put in front of pieces that lead back from where it leads. -/
theorem Returns.cons (hpos : 1 ≤ depth) (h : Returns (depth + p.change) ps) :
    Returns depth (p :: ps) := by
  refine ⟨by rw [changes_cons, ← Int.add_assoc, h.zero], fun f b hf hb => ?_⟩
  cases f with
  | nil => simpa using hpos
  | cons q f =>
    obtain ⟨rfl, rfl⟩ := List.cons.inj hf
    rw [changes_cons, ← Int.add_assoc]
    exact h.before f b rfl hb

/-- Behind the first piece, the others lead back from where it leads. -/
theorem Returns.tail (h : Returns depth (p :: ps)) : Returns (depth + p.change) ps := by
  refine ⟨by rw [Int.add_assoc, ← changes_cons, h.zero], fun f b hf hb => ?_⟩
  rw [Int.add_assoc, ← changes_cons]
  exact h.before (p :: f) b (by rw [hf, List.cons_append]) hb

/-- The depth comes to zero somewhere in the pieces, or it stays positive. -/
theorem exists_returns (ps : List Piece) (hpos : 1 ≤ depth) :
    (∃ front back, ps = front ++ back ∧ Returns depth front) ∨ 1 ≤ depth + changes ps := by
  induction ps generalizing depth with
  | nil => exact .inr (by simpa using hpos)
  | cons p ps ih =>
    by_cases hzero : depth + p.change = 0
    · exact .inl ⟨[p], ps, rfl, .single hpos hzero⟩
    · -- A piece takes the depth down by one at most, so it is positive again.
      have hchange := p.neg_one_le_change
      have hnext : 1 ≤ depth + p.change := by omega
      rcases ih hnext with ⟨front, back, rfl, hreturns⟩ | hle
      · exact .inl ⟨p :: front, back, rfl, .cons hpos hreturns⟩
      · right
        rw [changes_cons]
        omega

/-- The depth is not negative as long as it has not been zero before. -/
theorem changes_nonneg (hpos : 1 ≤ depth)
    (h : ∀ f b, ps = f ++ b → b ≠ [] → depth + changes f ≠ 0) : 0 ≤ depth + changes ps := by
  rcases exists_returns ps hpos with ⟨front, back, rfl, hreturns⟩ | hle
  · by_cases hback : back = []
    · have hzero := hreturns.zero
      rw [hback, List.append_nil]
      omega
    · exact absurd hreturns.zero (h front back rfl hback)
  · omega

end Piece

open Piece (changes texts Returns)

namespace Nesting

variable {n : Nesting} {t tail rest read : Text} {depth depth' : Nat} {cur cur' : Cursor}

/-! ## Marks and opening sequences -/

/-- The sequences that turn the depth. -/
def marks : Nesting → Turn → List Text
  | brackets, .deeper => [['('], ['['], ['\x7b']]
  | brackets, .back => [[')'], [']'], ['\x7d']]
  | placeholder start stop, .deeper =>
    if '\x7b' ∈ start ∧ '\x7d' ∈ stop then [['\x7b']] else [start].filter (· ≠ [])
  | placeholder start stop, .back =>
    if '\x7b' ∈ start ∧ '\x7d' ∈ stop then [['\x7d']] else [stop].filter (· ≠ [])

/-- The sequences that open a group, and the depths they lead to. -/
inductive OpensWith : Nesting → Text → Nat → Prop
  | bracket {c : Char} (hc : c = '(' ∨ c = '[' ∨ c = '\x7b') : OpensWith .brackets [c] 1
  | curly {start stop : Text} (hstart : '\x7b' ∈ start) (hstop : '\x7d' ∈ stop) :
      OpensWith (.placeholder start stop) start (start.count '\x7b')
  | sequence {start stop : Text} (hne : start ≠ []) (h : ¬ ('\x7b' ∈ start ∧ '\x7d' ∈ stop)) :
      OpensWith (.placeholder start stop) start 1

/-- Curly brackets count where both delimiters have one. -/
theorem countsCurly_iff {start stop : Text} :
    countsCurly start stop = true ↔ '\x7b' ∈ start ∧ '\x7d' ∈ stop := by
  simp [countsCurly]

/-- A group opens at a positive depth. -/
theorem OpensWith.pos {start : Text} (h : n.OpensWith start depth) : 1 ≤ depth := by
  cases h with
  | bracket => exact Nat.le_refl 1
  | curly hstart => exact List.count_pos_iff.2 hstart
  | sequence => exact Nat.le_refl 1

/-- A group opens with a mark that is not empty. -/
theorem OpensWith.ne_nil {start : Text} (h : n.OpensWith start depth) : start ≠ [] := by
  cases h with
  | bracket => exact List.cons_ne_nil _ _
  | curly hstart => exact List.ne_nil_of_mem hstart
  | sequence hne => exact hne

/-- A group opens with one of its opening sequences. -/
theorem opening?_eq_some_iff {start : Text} :
    n.opening? t = some (start, rest, depth) ↔ n.OpensWith start depth ∧ t = start ++ rest := by
  cases n with
  | brackets =>
    constructor
    · intro h
      refine ⟨?_, eq_append_of_opening? h⟩
      cases t with
      | nil => cases h
      | cons c t =>
        simp only [opening?] at h
        split at h
        · rename_i hc
          cases h
          exact .bracket hc
        · cases h
    · rintro ⟨⟨hc⟩, rfl⟩
      simp [opening?, hc]
  | placeholder start' stop =>
    constructor
    · intro h
      refine ⟨?_, eq_append_of_opening? h⟩
      simp only [opening?] at h
      split at h
      · cases h
      · rename_i hne
        obtain ⟨r, -, hp⟩ := Option.map_eq_some_iff.1 h
        cases hp
        split
        · rename_i hcurly
          obtain ⟨hstart, hstop⟩ := countsCurly_iff.1 hcurly
          exact .curly hstart hstop
        · rename_i hcurly
          exact .sequence (mt List.isEmpty_iff.2 hne) (mt countsCurly_iff.2 hcurly)
    · rintro ⟨hopen, rfl⟩
      have hne := hopen.ne_nil
      cases hopen with
      | curly hstart hstop =>
        simp [opening?, hne, Text.after?_eq_some_iff.2 rfl, countsCurly_iff.2 ⟨hstart, hstop⟩]
      | sequence _ h =>
        simp [opening?, hne, Text.after?_eq_some_iff.2 rfl, mt countsCurly_iff.1 h]

/-- A mark is a word that is looked for, unless it is empty. -/
theorem sequence?_eq (mark t : Text) :
    sequence? mark t = Text.word? ([mark].filter (· ≠ [])) t := by
  unfold sequence? Text.word?
  by_cases hmark : mark = []
  · simp [hmark]
  · cases hafter : Text.after? mark t <;> simp [hmark, hafter]

/-- The mark at the front of a text is one of the sequences that turn the depth, and one that leads
back if there is such a one. -/
theorem mark?_eq (n : Nesting) (t : Text) :
    n.mark? t = ((Text.word? (n.marks .back) t).map (Turn.back, ·)).or
      ((Text.word? (n.marks .deeper) t).map (Turn.deeper, ·)) := by
  cases n with
  | brackets =>
    cases t with
    | nil => rfl
    | cons c t =>
      simp only [mark?, marks, Text.word?, List.findSome?_cons, List.findSome?_nil, Text.after?]
      by_cases hdeeper : c = '(' ∨ c = '[' ∨ c = '\x7b'
      · rcases hdeeper with rfl | rfl | rfl <;> simp
      · rw [if_neg hdeeper]
        simp only [not_or] at hdeeper
        by_cases hback : c = ')' ∨ c = ']' ∨ c = '\x7d'
        · rcases hback with rfl | rfl | rfl <;> simp
        · rw [if_neg hback]
          simp only [not_or] at hback
          simp [Ne.symm hdeeper.1, Ne.symm hdeeper.2.1, Ne.symm hdeeper.2.2, Ne.symm hback.1,
            Ne.symm hback.2.1, Ne.symm hback.2.2]
  | placeholder start stop =>
    by_cases hcurly : '\x7b' ∈ start ∧ '\x7d' ∈ stop
    · simp only [mark?, marks, countsCurly_iff.2 hcurly, if_pos hcurly, if_true]
      cases t with
      | nil => rfl
      | cons c t =>
        simp only [Text.word?, List.findSome?_cons, List.findSome?_nil, Text.after?]
        by_cases hdeeper : c = '\x7b'
        · subst hdeeper
          simp
        · by_cases hback : c = '\x7d'
          · subst hback
            simp
          · simp [hdeeper, hback, Ne.symm hdeeper, Ne.symm hback]
    · simp only [mark?, marks, if_neg hcurly, if_neg (mt countsCurly_iff.1 hcurly), sequence?_eq]
      cases Text.word? ([stop].filter (· ≠ [])) t with
      | some found => rfl
      | none => cases Text.word? ([start].filter (· ≠ [])) t <;> rfl

/-! ## The pieces of a line -/

/-- The first piece of what is left of a line, and what follows it; nothing at the end of the line.
A mark goes before a string literal, and one that leads back before one that leads deeper. -/
def first? (n : Nesting) (t : Text) : Option (Piece × Text) :=
  ((Text.word? (n.marks .back) t).map fun found => (⟨found.1, some .back⟩, found.2)).or <|
  ((Text.word? (n.marks .deeper) t).map fun found => (⟨found.1, some .deeper⟩, found.2)).or <|
  if atLineEnd t then none
  else
    (t.quoted?.map fun found => (⟨found.1, none⟩, found.2)).or <|
    t.head?.map fun c => (⟨[c], none⟩, t.tail)

/-- What the front of a text is: a mark, the end of the line, a string literal or a character. -/
theorem front_cases (n : Nesting) (t : Text) :
    (∃ turn m rest, n.mark? t = some (turn, m, rest) ∧ n.first? t = some (⟨m, some turn⟩, rest)) ∨
    n.mark? t = none ∧
      ((atLineEnd t = true ∧ n.first? t = none) ∨
      atLineEnd t = false ∧
        ((∃ q rest, t.quoted? = some (q, rest) ∧ n.first? t = some (⟨q, none⟩, rest)) ∨
        t.quoted? = none ∧ ∃ c rest, t = c :: rest ∧ n.first? t = some (⟨[c], none⟩, rest))) := by
  rw [mark?_eq, first?]
  cases Text.word? (n.marks .back) t with
  | some found => exact .inl ⟨.back, found.1, found.2, rfl, rfl⟩
  | none =>
    cases Text.word? (n.marks .deeper) t with
    | some found => exact .inl ⟨.deeper, found.1, found.2, rfl, rfl⟩
    | none =>
      refine .inr ⟨rfl, ?_⟩
      cases hend : atLineEnd t with
      | true => exact .inl ⟨rfl, rfl⟩
      | false =>
        refine .inr ⟨rfl, ?_⟩
        cases t.quoted? with
        | some found => exact .inl ⟨found.1, found.2, rfl, rfl⟩
        | none =>
          cases t with
          | nil => cases hend
          | cons c t => exact .inr ⟨rfl, c, t, rfl, rfl⟩

/-- A piece is a mark, a string literal, or a character that does not end the line. -/
theorem first?_cases {p : Piece} (h : n.first? t = some (p, rest)) :
    (∃ turn, n.mark? t = some (turn, p.text, rest)) ∨ t.quoted? = some (p.text, rest) ∨
    atLineEnd t = false ∧ ∃ c, p.text = [c] ∧ t = c :: rest := by
  rcases n.front_cases t with ⟨turn, m, rest', hm, hfirst⟩ | ⟨-, ⟨-, hfirst⟩ |
    ⟨hend, ⟨q, rest', hq, hfirst⟩ | ⟨-, c, rest', rfl, hfirst⟩⟩⟩
  · rw [hfirst] at h
    cases h
    exact .inl ⟨turn, hm⟩
  · rw [hfirst] at h
    cases h
  · rw [hfirst] at h
    cases h
    exact .inr (.inl hq)
  · rw [hfirst] at h
    cases h
    exact .inr (.inr ⟨hend, c, rfl, rfl⟩)

/-- There is no first piece exactly at the end of a line. -/
theorem first?_eq_none_iff : n.first? t = none ↔ n.mark? t = none ∧ atLineEnd t = true := by
  rcases n.front_cases t with ⟨turn, m, rest, hm, hfirst⟩ | ⟨hm, ⟨hend, hfirst⟩ |
    ⟨hend, ⟨q, rest, hq, hfirst⟩ | ⟨-, c, rest, rfl, hfirst⟩⟩⟩
  · simp [hm, hfirst]
  · simp [hm, hend, hfirst]
  · simp [hm, hend, hfirst]
  · simp [hm, hend, hfirst]

/-- A piece and what follows it are the text. -/
theorem eq_append_of_first? {p : Piece} (h : n.first? t = some (p, rest)) : t = p.text ++ rest := by
  rcases first?_cases h with ⟨turn, hm⟩ | hq | ⟨-, c, hc, rfl⟩
  · exact eq_append_of_mark? hm
  · exact Text.eq_append_of_quoted? hq
  · rw [hc]
    rfl

/-! ## Reading on -/

/-- The group ends with the piece at which the depth is zero. -/
theorem close_last {p : Piece} (hfirst : n.first? tail = some (p, rest)) (hpos : 1 ≤ depth)
    (hzero : (depth : Int) + p.change = 0) :
    n.close depth read tail cur = (.ok (read ++ p.text, rest), cur) := by
  have hloop := n.closePass_iterates (depth, read) ⟨tail, cur⟩
  rcases n.front_cases tail with ⟨turn, m, rest', hm, heq⟩ | ⟨hm, ⟨-, heq⟩ |
    ⟨-, ⟨q, rest', -, heq⟩ | ⟨-, c, rest', -, heq⟩⟩⟩ <;> rw [heq] at hfirst <;> cases hfirst
  · cases turn with
    | deeper =>
      rw [Piece.change_deeper] at hzero
      omega
    | back =>
      have hone : depth ≤ 1 := by
        rw [Piece.change_back] at hzero
        omega
      simp only [closePass, hm, if_pos hone] at hloop
      exact hloop
  · rw [Piece.change_plain] at hzero
    omega
  · rw [Piece.change_plain] at hzero
    omega

/-- The group goes on behind a piece as long as the depth is positive. -/
theorem close_more {p : Piece} (hfirst : n.first? tail = some (p, rest)) (hpos : 1 ≤ depth')
    (hdepth : (depth' : Int) = depth + p.change) :
    n.close depth read tail cur = n.close depth' (read ++ p.text) rest cur := by
  have hloop := n.closePass_iterates (depth, read) ⟨tail, cur⟩
  rcases n.front_cases tail with ⟨turn, m, rest', hm, heq⟩ | ⟨hm, ⟨-, heq⟩ |
    ⟨hend, ⟨q, rest', hq, heq⟩ | ⟨hq, c, rest', rfl, heq⟩⟩⟩ <;> rw [heq] at hfirst <;> cases hfirst
  · cases turn with
    | deeper =>
      obtain rfl : depth' = depth + 1 := by
        rw [Piece.change_deeper] at hdepth
        omega
      simp only [closePass, hm] at hloop
      exact hloop
    | back =>
      obtain rfl : depth' = depth - 1 := by
        rw [Piece.change_back] at hdepth
        omega
      have hmore : ¬ depth ≤ 1 := by omega
      simp only [closePass, hm, if_neg hmore] at hloop
      exact hloop
  · obtain rfl : depth' = depth := by
      rw [Piece.change_plain] at hdepth
      omega
    simp only [closePass, hm, hend, hq, Bool.false_eq_true, if_false] at hloop
    exact hloop
  · obtain rfl : depth' = depth := by
      rw [Piece.change_plain] at hdepth
      omega
    simp only [closePass, hm, hend, hq, Bool.false_eq_true, if_false] at hloop
    exact hloop

/-- At the end of a line the group goes on with the next one, without its indentation. -/
theorem close_pull {raw : Text} (hfirst : n.first? tail = none)
    (hnext : cur.next? = some (raw, cur')) :
    n.close depth read tail cur = n.close depth read raw.trimStart cur' := by
  have hloop := n.closePass_iterates (depth, read) ⟨tail, cur⟩
  obtain ⟨hm, hend⟩ := first?_eq_none_iff.1 hfirst
  simp only [closePass, hm, hend, hnext, if_true] at hloop
  exact hloop

/-- A group that is open where the lines end is a fault at the last line. -/
theorem close_exhausted (hfirst : n.first? tail = none) (hnext : cur.next? = none) :
    n.close depth read tail cur = (.error (.unterminated cur.number read), cur) := by
  have hloop := n.closePass_iterates (depth, read) ⟨tail, cur⟩
  obtain ⟨hm, hend⟩ := first?_eq_none_iff.1 hfirst
  simp only [closePass, hm, hend, hnext, if_true] at hloop
  exact hloop

/-- From `t` on, pulling `pulled`, the pieces `ps` are read, at least one; the last of them leaves
`rest` of its line. -/
inductive Reads (n : Nesting) : Text → List Text → List Piece → Text → Prop
  | last {t rest : Text} {p : Piece} (h : n.first? t = some (p, rest)) : n.Reads t [] [p] rest
  | more {t t' rest : Text} {pulled : List Text} {p : Piece} {ps : List Piece}
      (h : n.first? t = some (p, t')) (hs : n.Reads t' pulled ps rest) :
      n.Reads t pulled (p :: ps) rest
  | pull {t raw rest : Text} {pulled : List Text} {ps : List Piece} (h : n.first? t = none)
      (hs : n.Reads raw.trimStart pulled ps rest) : n.Reads t (raw :: pulled) ps rest

variable {pulled : List Text} {ps : List Piece}

/-- Something is read whenever lines are pulled. -/
theorem Reads.ne_nil (h : n.Reads t pulled ps rest) : ps ≠ [] := by
  induction h with
  | last | more => exact List.cons_ne_nil _ _
  | pull _ _ ih => exact ih

/-- The first of the pieces are read before the others, and take no more lines. -/
theorem Reads.front {front back : List Piece} (h : n.Reads t pulled (front ++ back) rest)
    (hne : front ≠ []) : ∃ pulled' rest', pulled' <+: pulled ∧ n.Reads t pulled' front rest' := by
  generalize hps : front ++ back = ps at h
  induction h generalizing front with
  | @last t rest p h =>
    cases front with
    | nil => exact absurd rfl hne
    | cons q front =>
      obtain ⟨rfl, hnil⟩ := List.cons.inj hps
      obtain ⟨rfl, -⟩ := List.append_eq_nil_iff.1 hnil
      exact ⟨[], rest, List.prefix_rfl, .last h⟩
  | @more t t' rest pulled p ps h hs ih =>
    cases front with
    | nil => exact absurd rfl hne
    | cons q front =>
      obtain ⟨rfl, rfl⟩ := List.cons.inj hps
      by_cases hfront : front = []
      · subst hfront
        exact ⟨[], t', List.nil_prefix, .last h⟩
      · obtain ⟨pulled', rest', hfrom, hreads⟩ := ih hfront rfl
        exact ⟨pulled', rest', hfrom, .more h hreads⟩
  | @pull t raw rest pulled ps h hs ih =>
    obtain ⟨pulled', rest', hfrom, hreads⟩ := ih hne hps
    exact ⟨raw :: pulled', rest', List.cons_prefix_cons.2 ⟨rfl, hfrom⟩, .pull h hreads⟩

/-- Reading comes to the end of the group if the depth comes back to zero. -/
theorem close_of_reads (h : n.Reads t pulled ps rest) (hpos : 1 ≤ depth)
    (hreturns : Returns depth ps) (hpulled : cur.Pulled pulled cur') :
    n.close depth read t cur = (.ok (read ++ texts ps, rest), cur') := by
  induction h generalizing depth read cur with
  | @last t rest p h =>
    have hzero : (depth : Int) + p.change = 0 := by simpa using hreturns.zero
    obtain rfl := hpulled.eq_of_nil
    rw [close_last h hpos hzero, Piece.texts_cons, Piece.texts_nil, List.append_nil]
  | @more t t' rest pulled p ps h hs ih =>
    have hle : 1 ≤ (depth : Int) + p.change := by
      simpa using hreturns.before [p] ps rfl hs.ne_nil
    obtain ⟨depth', hdepth⟩ := Int.eq_ofNat_of_zero_le (show 0 ≤ (depth : Int) + p.change by omega)
    have hpos' : 1 ≤ depth' := by omega
    have hreturns' : Returns depth' ps := by
      rw [← hdepth]
      exact hreturns.tail
    rw [close_more h hpos' hdepth.symm, ih hpos' hreturns' hpulled, Piece.texts_cons,
      List.append_assoc]
  | @pull t raw rest pulled ps h hs ih =>
    obtain ⟨cur₁, hnext, hpulled'⟩ := hpulled.exists_next?
    rw [close_pull h hnext]
    exact ih hpos hreturns hpulled'

/-- The first piece takes something off the line. -/
theorem first?_progress {p : Piece} (h : n.first? t = some (p, rest)) :
    rest.length < t.length := by
  rcases first?_cases h with ⟨turn, hm⟩ | hq | ⟨-, c, -, rfl⟩
  · exact mark?_progress hm
  · exact Text.length_lt_of_quoted? hq
  · exact Nat.lt_succ_self _

/-! ## Line ends -/

/-- A mark has no line ends in it if the delimiters have none. -/
theorem inner_of_mark? {turn : Turn} {m : Text} (hn : n.Inner)
    (h : n.mark? t = some (turn, m, rest)) : m.Inner := by
  have hmem : m ∈ n.marks turn := by
    rw [mark?_eq, Option.or_eq_some_iff, Option.map_eq_some_iff, Option.map_eq_some_iff] at h
    rcases h with ⟨found, hw, hp⟩ | ⟨-, found, hw, hp⟩
    · cases hp
      exact (Rule.eq_append_of_word? hw).2
    · cases hp
      exact (Rule.eq_append_of_word? hw).2
  cases n with
  | brackets =>
    have hall : ∀ m ∈ brackets.marks .deeper ++ brackets.marks .back, Text.Inner m := by decide
    cases turn with
    | deeper => exact hall m (List.mem_append_left _ hmem)
    | back => exact hall m (List.mem_append_right _ hmem)
  | placeholder start stop =>
    obtain ⟨hstart, hstop⟩ := hn
    cases turn with
    | deeper =>
      simp only [marks] at hmem
      split at hmem
      · obtain rfl := List.mem_singleton.1 hmem
        decide
      · obtain rfl := List.mem_singleton.1 (List.mem_filter.1 hmem).1
        exact hstart
    | back =>
      simp only [marks] at hmem
      split at hmem
      · obtain rfl := List.mem_singleton.1 hmem
        decide
      · obtain rfl := List.mem_singleton.1 (List.mem_filter.1 hmem).1
        exact hstop

/-- A text without characters of a line end does not reach into the terminator of its line. -/
theorem dropTerminator_inner_append {x : Text} (hx : x.Inner) (y : Text) :
    Text.dropTerminator (x ++ y) = x ++ y.dropTerminator :=
  Text.dropTerminator_append_of_getLast?
    (fun _ hlast => (hx _ (List.mem_of_getLast? hlast)).1 rfl)
    fun _ hlast => (hx _ (List.mem_of_getLast? hlast)).2 rfl

/-- Brackets have no line ends in them. -/
theorem inner_brackets : brackets.Inner :=
  trivial

/-- The opening of a group has no line ends in it. -/
theorem OpensWith.inner {start : Text} (h : n.OpensWith start depth) (hn : n.Inner) :
    start.Inner := by
  cases h with
  | bracket hc => rcases hc with rfl | rfl | rfl <;> decide
  | curly => exact hn.1
  | sequence => exact hn.1

/-- A piece does not reach into the terminator of its line. -/
theorem dropTerminator_of_first? {p : Piece} (hn : n.Inner) (h : n.first? t = some (p, rest)) :
    t.dropTerminator = p.text ++ rest.dropTerminator := by
  -- Marks have no character of a line end, literals end in a quote, and a character that is left
  -- does not begin the terminator.
  rw [eq_append_of_first? h]
  rcases first?_cases h with ⟨turn, hm⟩ | hq | ⟨hend, c, hc, rfl⟩
  · exact dropTerminator_inner_append (inner_of_mark? hn hm) rest
  · rw [← eq_append_of_first? h, Text.dropTerminator_of_quoted? hq]
  · rw [hc]
    refine Text.dropTerminator_append_of_getLast? ?_ ?_
    · rintro rfl hlast
      cases hlast
      cases hend
    · rintro rfl hlast
      cases hlast
      cases hend

/-- Nothing is left at the end of a line but its terminator. -/
theorem dropTerminator_of_atLineEnd (ht : t.OneLine) (h : atLineEnd t = true) :
    t.dropTerminator = [] := by
  unfold atLineEnd at h
  split at h
  · rfl
  · rename_i u
    rw [ht [] u rfl]
    rfl
  · rename_i u
    rw [ht ['\r'] u rfl]
    rfl
  · cases h

/-- Lines put together: all but the last lose their terminators. -/
def spliced : List Text → Text
  | [] => []
  | [t] => t
  | t :: u :: ts => t.dropTerminator ++ spliced (u :: ts)

/-- A piece of the first line can be taken out in front of the spliced lines. -/
theorem append_spliced {x : Text} {lines : List Text}
    (h : t.dropTerminator = x ++ rest.dropTerminator) (ht : t = x ++ rest) :
    spliced (t :: lines) = x ++ spliced (rest :: lines) := by
  cases lines with
  | nil => exact ht
  | cons u lines => simp only [spliced, h, List.append_assoc]

/-- What is read can be put in front of what is left and of any lines after it. -/
theorem Reads.texts_append (hn : n.Inner) (h : n.Reads t pulled ps rest) (ht : t.OneLine)
    (hpulled : ∀ raw ∈ pulled, raw.OneLine) (lines : List Text) :
    texts ps ++ spliced (rest :: lines) = spliced (t :: (pulled.map Text.trimStart ++ lines)) := by
  induction h with
  | @last t rest p h =>
    rw [Piece.texts_cons, Piece.texts_nil, List.append_nil, List.map_nil, List.nil_append,
      append_spliced (dropTerminator_of_first? hn h) (eq_append_of_first? h)]
  | @more t t' rest pulled p ps h hs ih =>
    have heq := eq_append_of_first? h
    have hsuffix : t' <:+ t := ⟨p.text, heq.symm⟩
    rw [append_spliced (dropTerminator_of_first? hn h) heq, Piece.texts_cons, List.append_assoc,
      ih (ht.of_isInfix hsuffix.isInfix) hpulled]
  | @pull t raw rest pulled ps h hs ih =>
    have hraw := (hpulled raw List.mem_cons_self).of_isInfix (Text.trimStart_suffix raw).isInfix
    rw [ih hraw fun r hr => hpulled r (List.mem_cons_of_mem _ hr), List.map_cons, List.cons_append,
      spliced, dropTerminator_of_atLineEnd ht (first?_eq_none_iff.1 h).2, List.nil_append]

/-! ## What reading comes to -/

/-- What reading on comes to: either the depth comes back to zero, and the group ends there, or all
lines are used up. -/
def Ends (n : Nesting) (depth : Nat) (read tail : Text) (cur : Cursor)
    (outcome : Outcome (Text × Text)) : Prop :=
  (∃ pulled ps rest cur', cur.Pulled pulled cur' ∧ n.Reads tail pulled ps rest ∧
    Returns depth ps ∧ outcome = (.ok (read ++ texts ps, rest), cur')) ∨
  ∃ all, outcome = (.error (.unterminated (cur.number + cur.ahead.length) (read ++ all)),
      ⟨[], cur.number + cur.ahead.length⟩) ∧
    (n.Inner → tail.OneLine → (∀ raw ∈ cur.ahead, raw.OneLine) →
      all = (tail :: cur.ahead.map Text.trimStart).flatMap Text.dropTerminator)

variable {outcome : Outcome (Text × Text)}

/-- A piece is put in front of what reading on from it comes to. -/
theorem Ends.more {p : Piece} (hpos : 1 ≤ depth) (hfirst : n.first? tail = some (p, rest))
    (hdepth : (depth' : Int) = depth + p.change)
    (h : n.Ends depth' (read ++ p.text) rest cur outcome) : n.Ends depth read tail cur outcome := by
  rcases h with ⟨pulled, ps, rest', cur', hpulled, hreads, hreturns, rfl⟩ | ⟨all, rfl, hall⟩
  · rw [hdepth] at hreturns
    refine .inl ⟨pulled, p :: ps, rest', cur', hpulled, .more hfirst hreads,
      .cons (by omega) hreturns, ?_⟩
    rw [Piece.texts_cons, List.append_assoc]
  · refine .inr ⟨p.text ++ all, by rw [List.append_assoc], fun hn htail hahead => ?_⟩
    have hrest : rest <:+ tail := ⟨p.text, (eq_append_of_first? hfirst).symm⟩
    rw [hall hn (htail.of_isInfix hrest.isInfix) hahead, List.flatMap_cons, List.flatMap_cons,
      dropTerminator_of_first? hn hfirst, List.append_assoc]

/-- The end of a line is nothing in front of the next line. -/
theorem Ends.pull {raw : Text} {ahead : List Text} {number : Nat} (hfirst : n.first? tail = none)
    (h : n.Ends depth read raw.trimStart ⟨ahead, number + 1⟩ outcome) :
    n.Ends depth read tail ⟨raw :: ahead, number⟩ outcome := by
  rcases h with ⟨pulled, ps, rest, cur', hpulled, hreads, hreturns, rfl⟩ | ⟨all, rfl, hall⟩
  · have hnext : Cursor.Pulled ⟨raw :: ahead, number⟩ [raw] ⟨ahead, number + 1⟩ := ⟨rfl, rfl⟩
    exact .inl ⟨raw :: pulled, ps, rest, cur', hnext.trans hpulled, .pull hfirst hreads, hreturns,
      rfl⟩
  · have hnumber : number + 1 + ahead.length = number + (ahead.length + 1) := by omega
    refine .inr ⟨all, by simp [hnumber], fun hn htail hahead => ?_⟩
    have hraw : raw.trimStart.OneLine :=
      (hahead raw List.mem_cons_self).of_isInfix (Text.trimStart_suffix raw).isInfix
    rw [hall hn hraw fun r hr => hahead r (List.mem_cons_of_mem _ hr), List.map_cons,
      List.flatMap_cons (x := tail),
      dropTerminator_of_atLineEnd htail (first?_eq_none_iff.1 hfirst).2]
    rfl

/-- A search for the closing mark ends where the depth first comes back to zero, or at the end of
the lines. -/
theorem close_ends (hpos : 1 ≤ depth) :
    n.Ends depth read tail cur (n.close depth read tail cur) := by
  -- Every step pulls a line or shortens the tail.
  induction hsize : cur.size + tail.length using Nat.strongRecOn
    generalizing depth read tail cur with
  | ind size ih =>
    subst hsize
    cases hfirst : n.first? tail with
    | none =>
      obtain ⟨ahead, number⟩ := cur
      cases ahead with
      | nil =>
        refine .inr ⟨[], ?_, fun _ htail _ => ?_⟩
        · rw [close_exhausted hfirst rfl, List.append_nil]
          rfl
        · simp [dropTerminator_of_atLineEnd htail (first?_eq_none_iff.1 hfirst).2]
      | cons raw ahead =>
        have hlt : Cursor.size ⟨ahead, number + 1⟩ + raw.trimStart.length <
            Cursor.size ⟨raw :: ahead, number⟩ + tail.length := by
          have hle := Text.length_trimStart_le raw
          rw [Cursor.size_cons raw ahead number (number + 1)]
          omega
        rw [close_pull hfirst (Cursor.next?_cons raw ahead number)]
        exact .pull hfirst (ih _ hlt hpos rfl)
    | some found =>
      obtain ⟨p, rest⟩ := found
      by_cases hzero : (depth : Int) + p.change = 0
      · rw [close_last hfirst hpos hzero]
        exact .inl ⟨[], [p], rest, cur, .refl cur, .last hfirst, .single (by omega) hzero, by simp⟩
      · have hchange := p.neg_one_le_change
        have hlt : cur.size + rest.length < cur.size + tail.length :=
          Nat.add_lt_add_left (first?_progress hfirst) _
        obtain ⟨depth', hdepth⟩ :=
          Int.eq_ofNat_of_zero_le (show 0 ≤ (depth : Int) + p.change by omega)
        have hpos' : 1 ≤ depth' := by omega
        rw [close_more hfirst hpos' hdepth.symm]
        exact .more hpos hfirst hdepth.symm (ih _ hlt hpos' rfl)

/-- The group that opens at the front of `line` reaches into the pulled lines and leaves `rest` of
the last of them. -/
def IsGroup (n : Nesting) (line : Text) (pulled : List Text) (g rest : Text) : Prop :=
  ∃ start depth after ps, n.OpensWith start depth ∧ line = start ++ after ∧
    n.Reads after pulled ps rest ∧ Returns depth ps ∧ g = start ++ texts ps

/-- A group opens at the front of `line`, but its depth does not come back to zero in the lines
there are. -/
def Unclosed (n : Nesting) (line : Text) (ahead : List Text) : Prop :=
  ∃ start depth after, n.OpensWith start depth ∧ line = start ++ after ∧
    ∀ pulled ps rest, pulled <+: ahead → n.Reads after pulled ps rest →
      (depth : Int) + changes ps ≠ 0

/-- What looking for a group at the front of a line comes to. -/
structure Balances (n : Nesting) (line : Text) (cur : Cursor) : Prop where
  /-- There is no group exactly if no opening sequence stands there; then no line is pulled. -/
  declines : ∀ cur', n.group? line cur = (.ok none, cur') ↔
    cur' = cur ∧ ∀ start depth, n.OpensWith start depth → ¬ start <+: line
  /-- A group ends exactly where the depth is zero for the first time. -/
  closes : ∀ g rest cur', n.group? line cur = (.ok (some (g, rest)), cur') ↔
    ∃ pulled, cur.Pulled pulled cur' ∧ n.IsGroup line pulled g rest
  /-- With what follows it, it is the line and the pulled lines, without their indentation and
  without the terminators in between. -/
  joins : ∀ pulled g rest cur', cur.Pulled pulled cur' → n.IsGroup line pulled g rest →
    g ++ rest = spliced (line :: pulled.map Text.trimStart)
  /-- The group is a fault exactly if the depth is never zero; then all lines have been pulled. -/
  fails : ∀ e cur', n.group? line cur = (.error e, cur') ↔
    n.Unclosed line cur.ahead ∧ cur' = ⟨[], cur.number + cur.ahead.length⟩ ∧
      e = .unterminated cur'.number
        ((line :: cur.ahead.map Text.trimStart).flatMap Text.dropTerminator)
  /-- Up to where it is zero for the first time, the depth is not negative. -/
  nonneg : ∀ start depth after, n.OpensWith start depth → line = start ++ after →
    ∀ pulled ps rest, n.Reads after pulled ps rest →
      (∀ f b, ps = f ++ b → b ≠ [] → (depth : Int) + changes f ≠ 0) →
      0 ≤ (depth : Int) + changes ps

variable {line start : Text}

/-- Where a group opens, its closing mark is looked for. -/
theorem group?_of_opensWith (hopen : n.OpensWith start depth) (cur : Cursor) :
    n.group? (start ++ rest) cur =
      Prod.map (Except.map some) id (n.close depth start rest cur) := by
  have ho : n.opening? (start ++ rest) = some (start, rest, depth) :=
    opening?_eq_some_iff.2 ⟨hopen, rfl⟩
  cases hclose : n.close depth start rest cur with
  | mk result cur' => cases result <;> simp [group?, ho, hclose, Except.map]

/-- A group is read as it is defined. -/
theorem group?_of_isGroup {g : Text} (hpulled : cur.Pulled pulled cur')
    (h : n.IsGroup line pulled g rest) : n.group? line cur = (.ok (some (g, rest)), cur') := by
  obtain ⟨start, depth, after, ps, hopen, rfl, hreads, hreturns, rfl⟩ := h
  rw [group?_of_opensWith hopen, close_of_reads hreads hopen.pos hreturns hpulled]
  rfl

/-- A group whose depth comes to zero at all is closed. -/
theorem exists_isGroup {ahead : List Text} (hopen : n.OpensWith start depth)
    (hfrom : pulled <+: ahead) (hreads : n.Reads t pulled ps rest)
    (hzero : (depth : Int) + changes ps = 0) :
    ∃ pulled' g rest', pulled' <+: ahead ∧ n.IsGroup (start ++ t) pulled' g rest' := by
  have hpos : 1 ≤ (depth : Int) := by
    have := hopen.pos
    omega
  rcases Piece.exists_returns ps hpos with ⟨front, back, rfl, hreturns⟩ | hle
  · obtain ⟨pulled', rest', hle, hfront⟩ := hreads.front (hreturns.ne_nil hpos)
    exact ⟨pulled', _, rest', hle.trans hfrom, start, depth, t, front, hopen, rfl, hfront,
      hreturns, rfl⟩
  · omega

/-- A group that is not closed in the lines to come is no group over some of them. -/
theorem Unclosed.not_isGroup {ahead : List Text} {g : Text} (h : n.Unclosed line ahead)
    (hfrom : pulled <+: ahead) : ¬ n.IsGroup line pulled g rest := by
  rintro ⟨start, depth, after, ps, hopen, rfl, hreads, hreturns, rfl⟩
  obtain ⟨start', depth', after', hopen', heq, hnever⟩ := h
  -- A line is opened in one way only.
  have ho := opening?_eq_some_iff.2 ⟨hopen', heq⟩
  rw [opening?_eq_some_iff.2 ⟨hopen, rfl⟩] at ho
  cases ho
  exact hnever pulled ps rest hfrom hreads hreturns.zero

/-- A line opens a group, or there is none. -/
theorem opensWith_or_group?_eq_none (n : Nesting) (line : Text) (cur : Cursor) :
    (∃ start depth rest, n.OpensWith start depth ∧ line = start ++ rest) ∨
    (∀ start depth, n.OpensWith start depth → ¬ start <+: line) ∧
      n.group? line cur = (.ok none, cur) := by
  cases ho : n.opening? line with
  | none =>
    right
    refine ⟨?_, by unfold group?; rw [ho]⟩
    rintro start depth hopen ⟨rest, rfl⟩
    rw [opening?_eq_some_iff.2 ⟨hopen, rfl⟩] at ho
    cases ho
  | some found =>
    obtain ⟨start, rest, depth⟩ := found
    exact .inl ⟨start, depth, rest, opening?_eq_some_iff.1 ho⟩

/-- No group is found exactly where none opens, and then nothing is pulled. -/
theorem group?_eq_none_iff : n.group? line cur = (.ok none, cur') ↔
    cur' = cur ∧ ∀ start depth, n.OpensWith start depth → ¬ start <+: line := by
  rcases n.opensWith_or_group?_eq_none line cur with
    ⟨start, depth, rest, hopen, rfl⟩ | ⟨hopens, hnone⟩
  · constructor
    · intro h
      rw [group?_of_opensWith hopen] at h
      generalize n.close depth start rest cur = outcome at h
      obtain ⟨_ | found, cur₁⟩ := outcome <;> cases h
    · rintro ⟨-, hopens⟩
      exact absurd (List.prefix_append start rest) (hopens start depth hopen)
  · rw [hnone]
    constructor
    · intro h
      cases h
      exact ⟨rfl, hopens⟩
    · rintro ⟨rfl, -⟩
      rfl

/-- A line that opens a group has a group at its front, or all lines are used up. -/
theorem group?_cases_of_opensWith (hopen : n.OpensWith start depth) (rest : Text) (cur : Cursor) :
    (∃ pulled g rest' cur', cur.Pulled pulled cur' ∧ n.IsGroup (start ++ rest) pulled g rest') ∨
    ∃ all, n.group? (start ++ rest) cur =
        (.error (.unterminated (cur.number + cur.ahead.length) all),
          ⟨[], cur.number + cur.ahead.length⟩) ∧
      (n.Inner → Text.OneLine (start ++ rest) → (∀ raw ∈ cur.ahead, raw.OneLine) →
        all = ((start ++ rest) :: cur.ahead.map Text.trimStart).flatMap Text.dropTerminator) := by
  have hends : n.Ends depth start rest cur _ := close_ends hopen.pos
  rcases hends with ⟨pulled, ps, rest', cur', hpulled, hreads, hreturns, -⟩ | ⟨all, hclose, hall⟩
  · exact .inl ⟨pulled, _, rest', cur', hpulled, start, depth, rest, ps, hopen, rfl, hreads,
      hreturns, rfl⟩
  · refine .inr ⟨start ++ all, by rw [group?_of_opensWith hopen, hclose]; rfl, ?_⟩
    intro hn hline hahead
    have hrest := hline.of_isInfix (List.suffix_append start rest).isInfix
    rw [hall hn hrest hahead, List.flatMap_cons, List.flatMap_cons,
      dropTerminator_inner_append (hopen.inner hn), List.append_assoc]

/-- A group is what `group?` finds. -/
theorem group?_eq_some_iff {g : Text} : n.group? line cur = (.ok (some (g, rest)), cur') ↔
    ∃ pulled, cur.Pulled pulled cur' ∧ n.IsGroup line pulled g rest := by
  constructor
  · intro h
    rcases n.opensWith_or_group?_eq_none line cur with
      ⟨start, depth, after, hopen, rfl⟩ | ⟨-, hnone⟩
    · rcases group?_cases_of_opensWith hopen after cur with
        ⟨pulled, g', rest', cur₁, hpulled, hgroup⟩ | ⟨all, hfault, -⟩
      · rw [group?_of_isGroup hpulled hgroup] at h
        cases h
        exact ⟨pulled, hpulled, hgroup⟩
      · rw [hfault] at h
        cases h
    · rw [hnone] at h
      cases h
  · rintro ⟨pulled, hpulled, hgroup⟩
    exact group?_of_isGroup hpulled hgroup

/-- A group that is not closed is a fault. -/
theorem group?_eq_error_iff {e : Diagnostic} (hn : n.Inner) (hline : line.OneLine)
    (hahead : ∀ raw ∈ cur.ahead, raw.OneLine) :
    n.group? line cur = (.error e, cur') ↔
      n.Unclosed line cur.ahead ∧ cur' = ⟨[], cur.number + cur.ahead.length⟩ ∧
        e = .unterminated cur'.number
          ((line :: cur.ahead.map Text.trimStart).flatMap Text.dropTerminator) := by
  constructor
  · intro h
    rcases n.opensWith_or_group?_eq_none line cur with
      ⟨start, depth, after, hopen, rfl⟩ | ⟨-, hnone⟩
    · have hunclosed : n.Unclosed (start ++ after) cur.ahead := by
        refine ⟨start, depth, after, hopen, rfl, ?_⟩
        intro pulled ps rest hfrom hreads hzero
        obtain ⟨pulled', g, rest', hle, hgroup⟩ := exists_isGroup hopen hfrom hreads hzero
        obtain ⟨cur₁, hpulled⟩ := Cursor.exists_pulled hle
        rw [group?_of_isGroup hpulled hgroup] at h
        cases h
      rcases group?_cases_of_opensWith hopen after cur with
        ⟨pulled, g, rest, cur₁, hpulled, hgroup⟩ | ⟨all, hfault, hall⟩
      · rw [group?_of_isGroup hpulled hgroup] at h
        cases h
      · rw [hfault, hall hn hline hahead] at h
        cases h
        exact ⟨hunclosed, rfl, rfl⟩
    · rw [hnone] at h
      cases h
  · rintro ⟨hunclosed, rfl, rfl⟩
    obtain ⟨start, depth, after, hopen, rfl, -⟩ := id hunclosed
    rcases group?_cases_of_opensWith hopen after cur with
      ⟨pulled, g, rest, cur₁, hpulled, hgroup⟩ | ⟨all, hfault, hall⟩
    · exact absurd hgroup (hunclosed.not_isGroup ⟨cur₁.ahead, hpulled.ahead.symm⟩)
    · rw [hfault, hall hn hline hahead]

/-- A group can be put in front of what follows it and of any lines after that. -/
theorem IsGroup.append_spliced_cons {g : Text} (h : n.IsGroup line pulled g rest) (hn : n.Inner)
    (hline : line.OneLine) (hpulled : ∀ raw ∈ pulled, raw.OneLine) (lines : List Text) :
    g ++ spliced (rest :: lines) = spliced (line :: (pulled.map Text.trimStart ++ lines)) := by
  obtain ⟨start, depth, after, ps, hopen, rfl, hreads, -, rfl⟩ := h
  have hafter := hline.of_isInfix (List.suffix_append start after).isInfix
  rw [append_spliced (dropTerminator_inner_append (hopen.inner hn) after) rfl, List.append_assoc,
    hreads.texts_append hn hafter hpulled]

/-- A group and what follows it are the lines, put together. -/
theorem IsGroup.append_eq_spliced {g : Text} (h : n.IsGroup line pulled g rest) (hn : n.Inner)
    (hline : line.OneLine) (hpulled : ∀ raw ∈ pulled, raw.OneLine) :
    g ++ rest = spliced (line :: pulled.map Text.trimStart) := by
  have hspliced := h.append_spliced_cons hn hline hpulled []
  rwa [List.append_nil] at hspliced

/-- A group is balanced: it runs from its opening sequence to the first piece at which the depth is
zero, over as many lines as that takes. Nothing is found only if nothing opens a group, and it is a
fault only if the depth is never zero. -/
theorem group?_balances (hn : n.Inner) (hline : line.OneLine)
    (hahead : ∀ raw ∈ cur.ahead, raw.OneLine) : n.Balances line cur where
  declines _ := group?_eq_none_iff
  closes _ _ _ := group?_eq_some_iff
  joins pulled g rest cur' hpulled hgroup := by
    refine hgroup.append_eq_spliced hn hline fun raw hraw => hahead raw ?_
    rw [hpulled.ahead]
    exact List.mem_append_left _ hraw
  fails _ _ := group?_eq_error_iff hn hline hahead
  nonneg start depth after hopen _ pulled ps rest _ hne := by
    have hpos := hopen.pos
    exact Piece.changes_nonneg (by omega) hne

/-- A closing delimiter in a literal and an inner pair of delimiters do not end a value, and the
line end inside it is not part of it. -/
theorem group?_balances_two_lines :
    (placeholder "[[".toList "]]".toList).Inner ∧ Text.OneLine "[[a ']]' [[b\r\n".toList ∧
    (∀ raw ∈ ["  c]]]] d\n".toList, "e\n".toList], Text.OneLine raw) ∧
    ∃ pulled, Cursor.Pulled ⟨["  c]]]] d\n".toList, "e\n".toList], 0⟩ pulled ⟨["e\n".toList], 1⟩ ∧
      (placeholder "[[".toList "]]".toList).IsGroup "[[a ']]' [[b\r\n".toList pulled
        "[[a ']]' [[bc]]]]".toList " d\n".toList := by
  have hn : (placeholder "[[".toList "]]".toList).Inner := ⟨by decide, by decide⟩
  have hline : Text.OneLine "[[a ']]' [[b\r\n".toList := by decide
  have hahead : ∀ raw ∈ ["  c]]]] d\n".toList, "e\n".toList], Text.OneLine raw := by decide
  have hbalances : (placeholder "[[".toList "]]".toList).Balances "[[a ']]' [[b\r\n".toList
      ⟨["  c]]]] d\n".toList, "e\n".toList], 0⟩ := group?_balances hn hline hahead
  exact ⟨hn, hline, hahead, (hbalances.closes _ _ _).1 (by decide +kernel)⟩

end Nesting

end TerseMarkup
