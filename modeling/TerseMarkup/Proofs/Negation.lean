import TerseMarkup.Proofs.Balance
import TerseMarkup.Proofs.Inlining
import TerseMarkup.Proofs.Tag

/-!
# Negated statements

A negated statement stands for a statement whose condition is wrapped in `not (…)`. The condition
is read twice: once on its own, and once more inside the round brackets. If the brackets and string
literals of the condition are closed on its line (`Text.Closed`), then both readings take it as it
stands, so the two statements open the same block (`openNegated_of_closed`), and the template goes
on in the same way, whatever follows (`Profile.compile_negated`).

Between the round brackets a colon does not end the condition. So content behind a colon becomes
part of a negated condition (`Profile.negated_condition_takes_inline_content`).
-/

namespace TerseMarkup

/-! ## Closed texts -/

namespace Text

/-- The brackets and string literals in a text are all closed in it. Round, square and curly
brackets nest in each other and are not told apart. -/
inductive Closed : Text → Prop
  | nil : Closed []
  | char {c : Char} {t : Text} (hc : c ∉ "([\x7b)]\x7d\"'".toList) (ht : Closed t) : Closed (c :: t)
  | literal {q t : Text} (hq : quoted? (q ++ t) = some (q, t)) (ht : Closed t) : Closed (q ++ t)
  | group {start stop : Char} {inner t : Text} (hstart : start ∈ "([\x7b".toList)
      (hstop : stop ∈ ")]\x7d".toList) (hinner : Closed inner) (ht : Closed t) :
      Closed (start :: (inner ++ stop :: t))

variable {mark x body rest q u : Text} {c d : Char}

/-- What follows a quote does not change where it closes, if it cannot be part of a quote. -/
theorem closing?_append_cons (hd : d ∉ mark) (h : closing? mark x = some (body, rest)) (u : Text) :
    closing? mark (x ++ d :: u) = some (body, rest ++ d :: u) := by
  fun_induction closing? mark x generalizing body rest with
  | case1 => cases h
  | case2 => cases h
  | case3 c t ih =>
    obtain ⟨⟨b, r⟩, hb, hp⟩ := Option.map_eq_some_iff.1 h
    cases hp
    rw [List.cons_append, List.cons_append, closing?, if_pos rfl]
    simp only [ih hb, Option.map_some]
  | case4 c t hc r hr =>
    cases h
    have hr' := after?_append_cons hd (c :: t) u
    rw [hr, List.cons_append] at hr'
    rw [List.cons_append, closing?.eq_def]
    simp only [if_neg hc, hr', Option.map_some]
  | case5 c t hc hr ih =>
    obtain ⟨⟨b, r⟩, hb, hp⟩ := Option.map_eq_some_iff.1 h
    cases hp
    have hr' := after?_append_cons hd (c :: t) u
    rw [hr, List.cons_append] at hr'
    rw [List.cons_append, closing?.eq_def]
    simp only [if_neg hc, hr', ih hb, Option.map_none, Option.map_some]

/-- A literal is the same with more behind the text, if that does not start with a quote. -/
theorem quoted?_append_cons (hdouble : d ≠ '"') (hsingle : d ≠ '\'')
    (h : quoted? x = some (q, rest)) (u : Text) :
    quoted? (x ++ d :: u) = some (q, rest ++ d :: u) := by
  have hmarks : ∀ mark ∈ quoteMarks, d ∉ mark := by
    intro mark hmark
    simp only [quoteMarks, List.mem_cons, List.not_mem_nil, or_false] at hmark
    rcases hmark with rfl | rfl | rfl | rfl <;> simp [hdouble, hsingle]
  have hmark? : quoteMark? (x ++ d :: u) = quoteMark? x := by
    have hprefix : ∀ mark ∈ quoteMarks, mark.isPrefixOf (x ++ d :: u) = mark.isPrefixOf x :=
      fun mark hmark => isPrefixOf_append_cons (hmarks mark hmark) x u
    simp only [quoteMarks, List.forall_mem_cons] at hprefix
    simp only [quoteMark?, quoteMarks, List.find?_cons, List.find?_nil, hprefix]
  unfold quoted? at h ⊢
  rw [hmark?]
  cases hm : quoteMark? x with
  | none =>
    rw [hm] at h
    cases h
  | some mark =>
    rw [hm] at h
    obtain ⟨⟨b, r⟩, hb, hp⟩ := Option.map_eq_some_iff.1 h
    cases hp
    have hpre : mark <+: x := by simpa using List.find?_some hm
    simp only [List.drop_append_of_le_length hpre.length_le,
      closing?_append_cons (hmarks mark (List.mem_of_find?_eq_some hm)) hb u, Option.map_some]

/-- A string literal starts with a quote. -/
theorem exists_cons_of_quoted? (h : quoted? x = some (q, rest)) :
    ∃ c t, x = c :: t ∧ (c = '"' ∨ c = '\'') := by
  cases x with
  | nil => cases h
  | cons c t =>
    refine ⟨c, t, rfl, ?_⟩
    by_cases hdouble : c = '"'
    · exact .inl hdouble
    · refine .inr (Decidable.byContradiction fun hsingle => ?_)
      rw [quoted?_cons_eq_none hdouble hsingle] at h
      cases h

end Text

/-! ## Reading a closed text -/

namespace Nesting

variable {x t : Text} {c d start stop : Char} {depth : Nat} {read u : Text} {cur : Cursor}

/-- Any opening bracket leads deeper. -/
theorem mark?_start (h : start ∈ "([\x7b".toList) (t : Text) :
    brackets.mark? (start :: t) = some (.deeper, [start], t) := by
  have hstart : start = '(' ∨ start = '[' ∨ start = '\x7b' := by simpa using h
  simp only [mark?, if_pos hstart]

/-- Any closing bracket leads back. -/
theorem mark?_stop (h : stop ∈ ")]\x7d".toList) (t : Text) :
    brackets.mark? (stop :: t) = some (.back, [stop], t) := by
  have hstop : stop = ')' ∨ stop = ']' ∨ stop = '\x7d' := by simpa using h
  rcases hstop with rfl | rfl | rfl <;> rfl

/-- Other characters are no marks. -/
theorem mark?_eq_none (h : c ∉ "([\x7b)]\x7d".toList) (t : Text) :
    brackets.mark? (c :: t) = none := by
  have hc : (c ≠ '(' ∧ c ≠ '[' ∧ c ≠ '\x7b') ∧ c ≠ ')' ∧ c ≠ ']' ∧ c ≠ '\x7d' := by
    simpa [and_assoc] using h
  simp [mark?, hc]

/-- A text is not at its line end if neither of its first two characters is a line feed. -/
theorem atLineEnd_cons_eq_false (hc : c ≠ '\n') (ht : t.head? ≠ some '\n') :
    atLineEnd (c :: t) = false := by
  unfold atLineEnd
  split
  · rename_i heq
    cases heq
  · rename_i heq
    exact absurd (List.cons.inj heq).1 hc
  · rename_i heq
    exact absurd (congrArg List.head? (List.cons.inj heq).2) ht
  · rfl

/-- A mark goes before all else. -/
theorem first?_of_mark? {turn : Turn} {m rest : Text}
    (h : brackets.mark? t = some (turn, m, rest)) :
    brackets.first? t = some (⟨m, some turn⟩, rest) := by
  rcases brackets.front_cases t with ⟨turn', m', rest', hm, hfirst⟩ | ⟨hm, -⟩
  · rw [h] at hm
    cases hm
    exact hfirst
  · rw [h] at hm
    cases hm

/-- A string literal in front of the end of the line is a piece. -/
theorem first?_of_quoted? {q rest : Text} (hq : t.quoted? = some (q, rest)) :
    brackets.first? t = some (⟨q, none⟩, rest) := by
  obtain ⟨c, v, rfl, hc⟩ := Text.exists_cons_of_quoted? hq
  have hmark : brackets.mark? (c :: v) = none := by
    rcases hc with rfl | rfl <;> rfl
  have hend : atLineEnd (c :: v) = false := by
    rcases hc with rfl | rfl <;> rfl
  rcases brackets.front_cases (c :: v) with ⟨_, _, _, hm, -⟩ | ⟨-, ⟨hend', -⟩ |
    ⟨-, ⟨q', rest', hq', hfirst⟩ | ⟨hq', -⟩⟩⟩
  · rw [hmark] at hm
    cases hm
  · rw [hend] at hend'
    cases hend'
  · rw [hq] at hq'
    cases hq'
    exact hfirst
  · rw [hq] at hq'
    cases hq'

/-- So is any other character. -/
theorem first?_of_plain (hc : c ∉ "([\x7b)]\x7d\"'".toList) (hend : atLineEnd (c :: t) = false) :
    brackets.first? (c :: t) = some (⟨[c], none⟩, t) := by
  have hmark : brackets.mark? (c :: t) = none :=
    mark?_eq_none (fun hmem => hc (List.mem_append_left "\"'".toList hmem)) t
  have hne : c ≠ '"' ∧ c ≠ '\'' := by
    constructor
    · rintro rfl
      exact hc (by decide)
    · rintro rfl
      exact hc (by decide)
  rcases brackets.front_cases (c :: t) with ⟨_, _, _, hm, -⟩ | ⟨-, ⟨hend', -⟩ |
    ⟨-, ⟨q, rest, hq, -⟩ | ⟨-, c', rest, heq, hfirst⟩⟩⟩
  · rw [hmark] at hm
    cases hm
  · rw [hend] at hend'
    cases hend'
  · rw [Text.quoted?_cons_eq_none hne.1 hne.2] at hq
    cases hq
  · cases heq
    exact hfirst

/-- A piece that is no mark is read on inside a group. -/
theorem close_plain {p rest tail : Text} (hfirst : brackets.first? tail = some (⟨p, none⟩, rest))
    (hpos : 1 ≤ depth) :
    brackets.close depth read tail cur = brackets.close depth (read ++ p) rest cur :=
  close_more hfirst hpos (Int.add_zero depth).symm

/-- An opening bracket is read on one level deeper. -/
theorem close_start (hstart : start ∈ "([\x7b".toList) :
    brackets.close depth read (start :: t) cur =
      brackets.close (depth + 1) (read ++ [start]) t cur :=
  close_more (first?_of_mark? (mark?_start hstart t)) (Nat.le_add_left 1 depth) rfl

/-- A closing bracket is read on one level up, as long as the group is not closed with it. -/
theorem close_stop (hstop : stop ∈ ")]\x7d".toList) (hpos : 1 ≤ depth) :
    brackets.close (depth + 1) read (stop :: t) cur =
      brackets.close depth (read ++ [stop]) t cur := by
  apply close_more (first?_of_mark? (mark?_stop hstop t)) hpos
  rw [Piece.change_back]
  omega

/-- Inside a group, a closed text is passed over. -/
theorem close_of_closed (hx : x.Closed) (hfeed : '\n' ∉ x) (hpos : 1 ≤ depth)
    (hstop : stop ∈ ")]\x7d".toList) :
    brackets.close depth read (x ++ stop :: u) cur =
      brackets.close depth (read ++ x) (stop :: u) cur := by
  have hquote {stop : Char} (h : stop ∈ ")]\x7d".toList) :
      stop ≠ '"' ∧ stop ≠ '\'' ∧ stop ≠ '\n' := by
    have hcases : stop = ')' ∨ stop = ']' ∨ stop = '\x7d' := by simpa using h
    rcases hcases with rfl | rfl | rfl <;> decide
  induction hx generalizing depth read stop u with
  | nil => rw [List.nil_append, List.append_nil]
  | @char c t hc ht ih =>
    rw [List.mem_cons, not_or] at hfeed
    have hnext : (t ++ stop :: u).head? ≠ some '\n' := by
      cases t with
      | nil => simpa using (hquote hstop).2.2
      | cons e t => simpa using fun h : e = '\n' => hfeed.2 (h ▸ List.mem_cons_self)
    have hfirst := first?_of_plain hc (atLineEnd_cons_eq_false (Ne.symm hfeed.1) hnext)
    rw [List.cons_append, close_plain hfirst hpos, ih hfeed.2 hpos hstop, List.append_assoc]
    rfl
  | @literal q t hq ht ih =>
    rw [List.mem_append, not_or] at hfeed
    have hfirst := first?_of_quoted?
      (Text.quoted?_append_cons (hquote hstop).1 (hquote hstop).2.1 hq u)
    rw [close_plain hfirst hpos, ih hfeed.2 hpos hstop, List.append_assoc]
  | @group start stop' inner t hstart hstop' hinner ht ihinner ih =>
    obtain ⟨hfeedinner, hfeedt⟩ : '\n' ∉ inner ∧ '\n' ∉ t := by
      simp only [List.mem_cons, List.mem_append, not_or] at hfeed
      exact ⟨hfeed.2.1, hfeed.2.2.2⟩
    calc brackets.close depth read (start :: (inner ++ stop' :: t) ++ stop :: u) cur
      _ = brackets.close (depth + 1) (read ++ [start]) (inner ++ stop' :: (t ++ stop :: u))
          cur := by
        rw [List.cons_append, close_start hstart, List.append_assoc, List.cons_append]
      _ = brackets.close depth (read ++ [start] ++ inner ++ [stop']) (t ++ stop :: u) cur := by
        rw [ihinner hfeedinner (Nat.le_add_left 1 depth) hstop', close_stop hstop' hpos]
      _ = brackets.close depth (read ++ start :: (inner ++ stop' :: t)) (stop :: u) cur := by
        rw [ih hfeedt hpos hstop]
        simp only [List.append_assoc, List.cons_append, List.nil_append]

/-- A group around a closed text ends on its line. -/
theorem group?_of_closed (hstart : start ∈ "([\x7b".toList) (hstop : stop ∈ ")]\x7d".toList)
    (hx : x.Closed) (hfeed : '\n' ∉ x) (t : Text) (cur : Cursor) :
    brackets.group? (start :: (x ++ stop :: t)) cur =
      (.ok (some (start :: (x ++ [stop]), t)), cur) := by
  have hopening : brackets.opening? (start :: (x ++ stop :: t)) =
      some ([start], x ++ stop :: t, 1) := by
    have hcases : start = '(' ∨ start = '[' ∨ start = '\x7b' := by simpa using hstart
    simp only [opening?, if_pos hcases]
  have hclose : brackets.close 1 [start] (x ++ stop :: t) cur =
      (.ok ([start] ++ x ++ [stop], t), cur) := by
    rw [close_of_closed hx hfeed (Nat.le_refl 1) hstop]
    exact close_last (first?_of_mark? (mark?_stop hstop t)) (Nat.le_refl 1) rfl
  simp only [group?, hopening, hclose]
  rfl

end Nesting

/-- A closed text is read to its end, without a further line. -/
theorem expressionAtoms_of_closed {x : Text} (hx : x.Closed) (hfeed : '\n' ∉ x) (hslash : '\\' ∉ x)
    (cur : Cursor) : expressionAtoms (x ++ ['\n']) cur = (.ok (x ++ ['\n']), cur) := by
  -- Every piece of the text is an atom, and none of them starts a continuation.
  have hatom {c : Char} {t a rest : Text} (hc : c ≠ '\\')
      (ha : atom none c t cur = (.ok (a, rest), cur)) :
      expressionAtoms (c :: t) cur = prependPiece false a (expressionAtoms rest cur) := by
    have hbreak : isBreak (c :: t) = false := by simp [isBreak, hc]
    exact expressionAtoms_of_atom rfl (followBreaks_of_not_isBreak hbreak cur) ha
  induction hx with
  | nil =>
    have ha : atom none '\n' [] cur = (.ok (['\n'], []), cur) := rfl
    rw [List.nil_append, hatom (by decide) ha, expressionAtoms_nil]
    rfl
  | @char c t hc ht ih =>
    rw [List.mem_cons, not_or] at hfeed hslash
    have ha : atom none c (t ++ ['\n']) cur = (.ok ([c], t ++ ['\n']), cur) := by
      have hne : c ≠ '(' ∧ c ≠ '[' ∧ c ≠ '\x7b' ∧ c ≠ ')' ∧ c ≠ ']' ∧ c ≠ '\x7d' ∧ c ≠ '"' ∧
          c ≠ '\'' := by simpa using hc
      obtain ⟨hround, hsquare, hcurly, -, -, -, hdouble, hsingle⟩ := hne
      have hopening : Nesting.brackets.opening? (c :: (t ++ ['\n'])) = none := by
        simp [Nesting.opening?, hround, hsquare, hcurly]
      have hquoted := Text.quoted?_cons_eq_none hdouble hsingle (t ++ ['\n'])
      simp only [atom, groupOf?, hquoted, Nesting.group?, hopening]
    rw [List.cons_append, hatom (Ne.symm hslash.1) ha, ih hfeed.2 hslash.2]
    rfl
  | @literal q t hq ht ih =>
    rw [List.mem_append, not_or] at hfeed hslash
    have hq' : Text.quoted? (q ++ t ++ ['\n']) = some (q, t ++ ['\n']) :=
      Text.quoted?_append_cons (by decide) (by decide) hq []
    obtain ⟨c, v, hcons, hquote⟩ := Text.exists_cons_of_quoted? hq'
    have hc : c ≠ '\\' := by
      rcases hquote with rfl | rfl <;> decide
    have ha : atom none c v cur = (.ok (q, t ++ ['\n']), cur) := by
      simp only [atom, groupOf?, ← hcons, hq']
    rw [hcons, hatom hc ha, ih hfeed.2 hslash.2, ← hcons]
    simp [prependPiece, breakText]
  | @group start stop inner t hstart hstop hinner ht _ ih =>
    obtain ⟨hfeedinner, hfeedt⟩ : '\n' ∉ inner ∧ '\n' ∉ t := by
      simp only [List.mem_cons, List.mem_append, not_or] at hfeed
      exact ⟨hfeed.2.1, hfeed.2.2.2⟩
    have hslasht : '\\' ∉ t := by
      simp only [List.mem_cons, List.mem_append, not_or] at hslash
      exact hslash.2.2.2
    have hcases : start = '(' ∨ start = '[' ∨ start = '\x7b' := by simpa using hstart
    have hquoted : Text.quoted? (start :: (inner ++ stop :: (t ++ ['\n']))) = none := by
      rcases hcases with rfl | rfl | rfl <;> rfl
    have hc : start ≠ '\\' := by
      rcases hcases with rfl | rfl | rfl <;> decide
    have ha : atom none start (inner ++ stop :: (t ++ ['\n'])) cur =
        (.ok (start :: (inner ++ [stop]), t ++ ['\n']), cur) := by
      simp only [atom, groupOf?, hquoted,
        Nesting.group?_of_closed hstart hstop hinner hfeedinner (t ++ ['\n']) cur]
    rw [List.cons_append, List.append_assoc, List.cons_append, hatom hc ha, ih hfeedt hslasht]
    simp [prependPiece, breakText]

/-! ## Conditions -/

/-- The text can be the condition of a statement, and is closed on its line. -/
structure Text.Condition (E : Text) : Prop where
  ne_nil : E ≠ []
  trimmed : E.trim = E
  oneLine : '\n' ∉ E
  noBreak : '\\' ∉ E
  closed : E.Closed

namespace Text.Condition

variable {E lead : Text} (h : E.Condition)

include h

/-- The condition is read as it stands. -/
theorem expression_eq {b b' : Text} (hb : ∀ c ∈ b, isBlank c = true)
    (hb' : ∀ c ∈ b', isBlank c = true) (cur : Cursor) :
    expression (b ++ E ++ b') cur = (.ok E, cur) := by
  have hline : Text.trim (b ++ E ++ b') = E := by
    rw [trim_append_blank _ hb', trim_blank_append hb, h.trimmed]
  have hread : Text.trim (E ++ ['\n']) = E := by
    rw [trim_append_blank E (forall_mem_of_all (by decide)), h.trimmed]
  simp only [expression, hline, expressionAtoms_of_closed h.closed h.oneLine h.noBreak, hread]

/-- A condition can be the body of a line. -/
theorem lineBody : E.LineBody :=
  .of_trim h.trimmed h.ne_nil h.oneLine

/-- So can a statement with a condition. -/
theorem lineBody_negated (hlead : lead.LineBody) : (lead ++ [' '] ++ E).LineBody :=
  hlead.append h.lineBody (by decide)

/-- So can a statement with its condition negated and in parentheses. -/
theorem lineBody_wrapped (hlead : lead.LineBody) :
    (lead ++ " not (".toList ++ (E ++ [')'])).LineBody := by
  have hstop : Text.LineBody [')'] := .of_trim rfl (by decide) (by decide)
  have hE := h.lineBody.append hstop (List.not_mem_nil : '\n' ∉ [])
  rw [List.append_nil] at hE
  exact hlead.append hE (by decide)

end Text.Condition

/-- Blanks behind the condition make no difference to a statement. -/
theorem openStatement_append_blank (d : Delimiters) (keyword t : Text) {b : Text}
    (hb : ∀ c ∈ b, isBlank c = true) :
    openStatement d keyword (t ++ b) = openStatement d keyword t := by
  have htrim := Text.trim_append_blank t hb
  have hexpr : expression (t ++ b) = expression t := by
    funext cur
    simp only [expression, htrim]
  simp only [openStatement, splitStatement, htrim, hexpr]

/-- A negated statement opens the block of the statement with the condition in `not (…)`. -/
theorem openNegated_of_closed (d : Delimiters) (keyword : Text) {E b : Text} (hE : E.Condition)
    (hb : ∀ c ∈ b, isBlank c = true) (cur : Cursor) :
    openNegated d keyword ([' '] ++ E ++ b) cur =
      openStatement d keyword (" not (".toList ++ E ++ [')'] ++ b) cur := by
  have hspace : ∀ c ∈ [' '], isBlank c = true := Text.forall_mem_of_all (by decide)
  rw [openStatement_append_blank d keyword _ hb]
  exact Scan.bind_of_ok (hE.expression_eq hspace hb cur)

/-! ## Two first lines that open the same -/

namespace Outline

variable {p : Profile} {s : Setting}

/-- What a run comes to is a matter of its first move. -/
theorem run_eq_of_step_eq (hp : p.IsStandard) {o o' : Outline}
    (h : o.step p.recognise s = o'.step p.recognise s) :
    o.run p.recognise s = o'.run p.recognise s := by
  cases hstep : o.step p.recognise s with
  | stop result cur => rw [run_of_stop hstep, run_of_stop (h.symm.trans hstep)]
  | go w next =>
    rw [run_of_steps hp (step_eq_go_iff.1 hstep),
      run_of_steps hp (step_eq_go_iff.1 (h.symm.trans hstep))]

/-- Lines that open the same are the same move. -/
theorem step_announced_congr {recognise : Text → Option Recognition} {stack : List Frame}
    {level : Nat} {t t' : Text} {cur : Cursor} {found found' : Recognition}
    (hfound : recognise t = some found) (hfound' : recognise t' = some found')
    (hopen : found.headline.opening s level t cur = found'.headline.opening s level t' cur) :
    (⟨stack, ⟨level, t⟩, true, cur⟩ : Outline).step recognise s =
      (⟨stack, ⟨level, t'⟩, true, cur⟩ : Outline).step recognise s := by
  simp only [step, look, hfound, hfound', hopen, if_true, perform_eq]

end Outline

namespace Text.LineBody

variable {head b : Text}

/-- The body of a line with more behind it. -/
theorem ofRaw_append (h : head.LineBody) (b : Text) :
    Line.ofRaw (head ++ b) = ⟨0, Text.dropTerminator (head ++ b)⟩ := by
  obtain ⟨c, u, rfl, hc⟩ := h.start
  exact Line.ofRaw_append (List.forall_mem_nil _) hc (u ++ b)

/-- Without a line feed there is no terminator to drop. -/
theorem dropTerminator_append (h : head.LineBody) (hb : '\n' ∉ b) :
    Text.dropTerminator (head ++ b) = head ++ b := by
  have hlast : (head ++ b).getLast? ≠ some '\n' := by
    intro hlast
    rcases List.mem_append.1 (List.mem_of_getLast? hlast) with hmem | hmem
    · exact h.oneLine hmem
    · exact hb hmem
  unfold Text.dropTerminator
  rw [if_neg hlast]

/-- A terminator reaches no further back than the end of the body. -/
theorem dropTerminator_append_feed (h : head.LineBody) (b : Text) :
    Text.dropTerminator (head ++ (b ++ ['\n'])) =
      head ++ if b.getLast? = some '\r' then b.dropLast else b := by
  unfold Text.dropTerminator
  rw [← List.append_assoc, if_pos List.getLast?_concat, List.dropLast_concat]
  cases hb : b.getLast? with
  | none =>
    obtain rfl : b = [] := List.getLast?_eq_none_iff.1 hb
    rw [List.append_nil, if_neg h.noReturn]
    simp
  | some c =>
    have hne : b ≠ [] := by
      rintro rfl
      cases hb
    rw [List.getLast?_append, hb, Option.some_or, List.dropLast_append_of_ne_nil hne]
    split <;> rfl

end Text.LineBody

/-- If nothing but blanks follows a body on the first line of a template, then the body is announced
with some of the blanks behind it. Those blanks and the lines to come do not depend on the body. -/
theorem Outline.exists_moves_first (p : Profile) (s : Setting) {S : Text}
    (hS : ∀ c ∈ S.takeWhile (· ≠ '\n'), isBlank c = true) :
    ∃ b rest, (∀ c ∈ b, isBlank c = true) ∧ '\n' ∉ b ∧ ∀ head, Text.LineBody head →
      Moves p.recognise s (.ofDocument (head ++ S)) []
        ⟨[.document], ⟨0, head ++ b⟩, true, ⟨rest, 1⟩⟩ := by
  have hne {head : Text} (hhead : head.LineBody) (b : Text) : head ++ b ≠ [] := by
    obtain ⟨c, u, rfl, -⟩ := hhead.start
    exact List.cons_ne_nil c (u ++ b)
  have hfeed : '\n' ∉ S.takeWhile (· ≠ '\n') := by
    intro hmem
    have htrue := List.all_eq_true.1 List.all_takeWhile _ hmem
    simp at htrue
  have hsplit : S.takeWhile (· ≠ '\n') ++ S.dropWhile (· ≠ '\n') = S :=
    List.takeWhile_append_dropWhile
  generalize S.takeWhile (· ≠ '\n') = b at hS hsplit hfeed
  have honeLine {head : Text} (hhead : head.LineBody) : '\n' ∉ head ++ b := by
    rw [List.mem_append, not_or]
    exact ⟨hhead.oneLine, hfeed⟩
  cases hv : S.dropWhile (· ≠ '\n') with
  | nil =>
    rw [hv, List.append_nil] at hsplit
    refine ⟨b, [], hS, hfeed, ?_⟩
    intro head hhead
    rw [← hsplit]
    refine moves_firstLine (Text.lines_of_not_mem (honeLine hhead) (hne hhead b)) ?_ (hne hhead b)
    rw [hhead.ofRaw_append, hhead.dropTerminator_append hfeed]
  | cons c u =>
    obtain rfl : c = '\n' := by
      have hstop := List.head?_dropWhile_not (fun c : Char => decide (c ≠ '\n')) S
      rw [hv] at hstop
      simpa using hstop
    rw [hv] at hsplit
    have hsubset : (if b.getLast? = some '\r' then b.dropLast else b) ⊆ b := by
      split
      · exact (List.dropLast_prefix b).subset
      · exact List.Subset.refl b
    refine ⟨if b.getLast? = some '\r' then b.dropLast else b, Text.lines u,
      fun c hc => hS c (hsubset hc), fun hmem => hfeed (hsubset hmem), ?_⟩
    intro head hhead
    have hsource : head ++ S = head ++ b ++ ['\n'] ++ u := by
      rw [← hsplit]
      simp only [List.append_assoc, List.cons_append, List.nil_append]
    rw [hsource]
    refine moves_first (honeLine hhead) ?_ (hne hhead _) u
    rw [List.append_assoc, hhead.ofRaw_append, hhead.dropTerminator_append_feed]

/-- Two first lines that open the same, with any blanks behind them, make no difference. -/
theorem Profile.compile_congr_first {p : Profile} (hp : p.IsStandard) (options : Options)
    {head head' S : Text} (hhead : head.LineBody) (hhead' : head'.LineBody)
    (hS : ∀ c ∈ S.takeWhile (· ≠ '\n'), isBlank c = true)
    (hopen : ∀ s b cur, (∀ c ∈ b, isBlank c = true) → '\n' ∉ b →
      ∃ found found', p.recognise (head ++ b) = some found ∧
        p.recognise (head' ++ b) = some found' ∧
        found.headline.opening s 0 (head ++ b) cur = found'.headline.opening s 0 (head' ++ b) cur) :
    p.compile options (head ++ S) = p.compile options (head' ++ S) := by
  generalize hs : p.setting (p.compileEmbedded options.depth options.depth) = s
  obtain ⟨b, rest, hb, hfeed, hmoves⟩ := Outline.exists_moves_first p s hS
  obtain ⟨found, found', hfound, hfound', heq⟩ := hopen s b ⟨rest, 1⟩ hb hfeed
  have hrun : (⟨[.document], ⟨0, head ++ b⟩, true, ⟨rest, 1⟩⟩ : Outline).run p.recognise s =
      (⟨[.document], ⟨0, head' ++ b⟩, true, ⟨rest, 1⟩⟩ : Outline).run p.recognise s :=
    Outline.run_eq_of_step_eq hp (Outline.step_announced_congr hfound hfound' heq)
  unfold compile compileWith
  rw [hs, Outline.run_of_moves hp (hmoves head hhead),
    Outline.run_of_moves hp (hmoves head' hhead'), hrun]

/-! ## The negated statements -/

/-- The words of negated statements, each with the word of the statement that it negates. -/
def negations : List (Text × Text) :=
  [("unless".toList, "if".toList), ("until".toList, "while".toList)]

/-- The words of statements can be bodies of lines. -/
theorem lineBody_negations {word keyword : Text} (h : (word, keyword) ∈ negations) :
    Text.LineBody (['-'] ++ word) ∧ Text.LineBody (['-'] ++ keyword) := by
  simp only [negations, List.mem_cons, List.not_mem_nil, or_false, Prod.mk.injEq] at h
  rcases h with ⟨rfl, rfl⟩ | ⟨rfl, rfl⟩ <;>
    exact ⟨.of_trim rfl (by decide) (by decide), .of_trim rfl (by decide) (by decide)⟩

/-- What a profile sees in a line depends on its rules only. -/
theorem Profile.recognise_congr {p q : Profile} (h : p.rules = q.rules) (line : Text) :
    p.recognise line = q.recognise line := by
  unfold recognise lookUp
  rw [h]

section

variable {p : Profile}
  (hp : p.rules = (Profile.mako p.markdown).rules ∨ p.rules = (Profile.django p.markdown).rules)
  {word keyword : Text} (h : (word, keyword) ∈ negations)

include hp h

/-- A negated statement is recognised with the keyword that it negates. -/
theorem recognise_negated (t : Text) :
    ∃ found, p.recognise (['-'] ++ word ++ [' '] ++ t) = some found ∧
      found.headline = .negated keyword (Text.firstLine (' ' :: t)) := by
  simp only [negations, List.mem_cons, List.not_mem_nil, or_false, Prod.mk.injEq] at h
  rcases hp with hp | hp
  · rw [Profile.recognise_congr hp]
    rcases h with ⟨rfl, rfl⟩ | ⟨rfl, rfl⟩
    · exact ⟨_, rfl, rfl⟩
    · exact ⟨_, rfl, rfl⟩
  · rw [Profile.recognise_congr hp]
    rcases h with ⟨rfl, rfl⟩ | ⟨rfl, rfl⟩
    · exact ⟨_, rfl, rfl⟩
    · exact ⟨_, rfl, rfl⟩

/-- The statement that a negated one stands for is recognised. -/
theorem recognise_negatable (t : Text) :
    ∃ found, p.recognise (['-'] ++ keyword ++ t) = some found ∧
      found.headline = .statement keyword (Text.firstLine t) := by
  simp only [negations, List.mem_cons, List.not_mem_nil, or_false, Prod.mk.injEq] at h
  rcases hp with hp | hp
  · rw [Profile.recognise_congr hp]
    rcases h with ⟨rfl, rfl⟩ | ⟨rfl, rfl⟩
    · exact ⟨_, rfl, rfl⟩
    · exact ⟨_, rfl, rfl⟩
  · rw [Profile.recognise_congr hp]
    rcases h with ⟨rfl, rfl⟩ | ⟨rfl, rfl⟩
    · exact ⟨_, rfl, rfl⟩
    · exact ⟨_, rfl, rfl⟩

/-- One word after the other, the two statements come to the same. -/
theorem compile_negated_word (options : Options) {E S : Text} (hE : E.Condition)
    (hS : ∀ c ∈ S.takeWhile (· ≠ '\n'), isBlank c = true) :
    p.compile options (['-'] ++ word ++ [' '] ++ E ++ S) =
      p.compile options (['-'] ++ keyword ++ " not (".toList ++ (E ++ [')']) ++ S) := by
  have hstandard : p.IsStandard := by
    unfold Profile.IsStandard
    rcases hp with hp | hp
    · rw [hp]
      exact Profile.mako_isStandard
    · rw [hp]
      exact Profile.django_isStandard
  obtain ⟨hword, hkeyword⟩ := lineBody_negations h
  apply Profile.compile_congr_first hstandard options (hE.lineBody_negated hword)
    (hE.lineBody_wrapped hkeyword) hS
  intro s b cur hb hfeed
  obtain ⟨found, hfound, hheadline⟩ := recognise_negated hp h (E ++ b)
  obtain ⟨found', hfound', hheadline'⟩ :=
    recognise_negatable hp h (" not (".toList ++ E ++ [')'] ++ b)
  have hfirst : Text.firstLine (' ' :: (E ++ b)) = [' '] ++ E ++ b := by
    apply Text.firstLine_eq_self
    simp [hE.oneLine, hfeed]
  have hfirst' : Text.firstLine (" not (".toList ++ E ++ [')'] ++ b) =
      " not (".toList ++ E ++ [')'] ++ b := by
    apply Text.firstLine_eq_self
    simp [hE.oneLine, hfeed]
  refine ⟨found, found', ?_, ?_, ?_⟩
  · rw [← hfound, List.append_assoc _ E b]
  · rw [← hfound']
    simp only [List.append_assoc]
  · rw [hheadline, hheadline', hfirst, hfirst']
    exact openNegated_of_closed s.delimiters keyword hE hb cur

end

/-- A negated statement with a condition that is closed on its line comes to the same as the
statement with the condition in `not (…)`, with faults and all, whatever follows on further lines.
Any delimiters and transpilers will do, as long as the rules are those of a dialect. -/
theorem Profile.compile_negated (p : Profile)
    (hp : p.rules = (mako p.markdown).rules ∨ p.rules = (django p.markdown).rules)
    (options : Options) (E S : Text) (hE : E.Condition)
    (hS : ∀ c ∈ S.takeWhile (· ≠ '\n'), isBlank c = true) :
    p.compile options ("-unless ".toList ++ E ++ S) =
        p.compile options ("-if not (".toList ++ E ++ [')'] ++ S) ∧
      p.compile options ("-until ".toList ++ E ++ S) =
        p.compile options ("-while not (".toList ++ E ++ [')'] ++ S) := by
  constructor
  · rw [List.append_assoc "-if not (".toList E [')']]
    exact compile_negated_word hp (List.mem_cons_self : _ ∈ negations) options hE hS
  · rw [List.append_assoc "-while not (".toList E [')']]
    exact compile_negated_word hp (List.mem_cons_of_mem _ List.mem_cons_self : _ ∈ negations)
      options hE hS

/-- A condition with a colon, a literal and brackets, in front of a line with a carriage return,
nested content and an alternative. -/
theorem Profile.compile_negated_lookup :
    Text.Condition "a[\"(\"] :b".toList ∧
      (django id).compile ⟨true, 2⟩ "-unless a[\"(\"] :b \r\n  p y\n-else\n  i\n".toList =
        (django id).compile ⟨true, 2⟩ "-if not (a[\"(\"] :b) \r\n  p y\n-else\n  i\n".toList ∧
      (django id).compile ⟨true, 2⟩ "-unless a[\"(\"] :b \r\n  p y\n-else\n  i\n".toList =
        .ok ("\x7b% if not (a[\"(\"] :b) %\x7d\n<p>y</p>\n\x7b% else %\x7d\n<i></i>\n".toList ++
          "\x7b% endif %\x7d".toList) := by
  have hliteral : Text.Closed "\"(\"".toList := @Text.Closed.literal "\"(\"".toList [] rfl .nil
  have htail : Text.Closed " :b".toList :=
    .char (by decide) (.char (by decide) (.char (by decide) .nil))
  have hE : Text.Condition "a[\"(\"] :b".toList :=
    ⟨by decide, rfl, by decide, by decide,
      .char (by decide) (.group (by decide) (by decide) hliteral htail)⟩
  refine ⟨hE, ?_, by decide +kernel⟩
  exact (compile_negated (django id) (.inr rfl) ⟨true, 2⟩ _ " \r\n  p y\n-else\n  i\n".toList hE
    (Text.forall_mem_of_all (by decide))).1

/-- Content behind a colon becomes part of a negated condition. -/
theorem Profile.negated_condition_takes_inline_content :
    (mako id).compile ⟨false, 2⟩ "-unless x: p y".toList =
        .ok "\n%if not (x: p y):\n\n%endif\n".toList ∧
      (mako id).compile ⟨false, 2⟩ "-if not (x): p y".toList =
        .ok "\n%if not (x):\n<p>y</p>\n%endif\n".toList ∧
      (mako id).compile ⟨false, 2⟩ "-until x: p y".toList =
        .ok "\n%while not (x: p y):\n\n%endwhile\n".toList ∧
      (mako id).compile ⟨false, 2⟩ "-while not (x): p y".toList =
        .ok "\n%while not (x):\n<p>y</p>\n%endwhile\n".toList := by
  decide +kernel

end TerseMarkup
