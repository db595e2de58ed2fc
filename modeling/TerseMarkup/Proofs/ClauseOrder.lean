import TerseMarkup.Proofs.Inlining
import TerseMarkup.Proofs.Termination

/-!
# The order of clauses

A statement goes on at its own indentation with clauses. `Outline.Absorbs` follows one statement
from the moment its block is open to its end: content, a clause, content, and so on, with the
clauses it takes and all that it writes. `Clause.InOrder` is the order that the clauses are in:

* a conditional takes any number of further conditions and then at most one alternative;
* a guarded block takes handlers and alternatives as they come, and then at most one final clause;
* no other statement takes any.

`Profile.clauses_in_order` shows this of every statement of a template that compiles, however deep
in the template it stands and whatever its content is. An alternative does not end a guarded block,
so there it may come twice (`Profile.guarded_block_takes_two_alternatives`).
-/

namespace TerseMarkup

namespace Clause

/-- Clauses of the given kinds as they come, and at most one last clause behind them. -/
def Sequence (kinds : List Clause) (last : Clause) (clauses : List Clause) : Prop :=
  ∃ front m, (∀ clause ∈ front, clause ∈ kinds) ∧ m ≤ 1 ∧ clauses = front ++ List.replicate m last

/-- The order that the clauses of a statement are in. -/
def InOrder (keyword : Text) (clauses : List Clause) : Prop :=
  if keyword = "if".toList then Sequence [elif] otherwise clauses
  else if keyword = "try".toList then Sequence [except, otherwise] lastly clauses
  else clauses = []

variable {keyword line t : Text} {kinds taken clauses : List Clause} {clause last : Clause}

/-- The empty list of clauses is in sequence. -/
theorem sequence_nil (kinds : List Clause) (last : Clause) : Sequence kinds last [] :=
  ⟨[], 0, List.forall_mem_nil _, Nat.zero_le 1, rfl⟩

/-- The empty list of clauses is in order, whatever the statement. -/
theorem inOrder_nil (keyword : Text) : InOrder keyword [] := by
  unfold InOrder
  split
  · exact sequence_nil _ _
  · split
    · exact sequence_nil _ _
    · rfl

/-- A clause goes on a statement only if the statement admits it and has not had its last one. -/
theorem admitted_of_next? (h : next? keyword taken line = some (clause, t)) :
    ended keyword taken = false ∧ clause ∈ admitted keyword := by
  unfold next? at h
  split at h
  · cases h
  · rename_i hended
    refine ⟨by simpa using hended, ?_⟩
    obtain ⟨c, hc, hfound⟩ := List.exists_of_findSome?_eq_some h
    obtain ⟨r, -, hr⟩ := Option.map_eq_some_iff.1 hfound
    cases hr
    exact hc

/-- The newest clause decides whether a statement has had its last one. -/
theorem ended_of_reverse {front : List Clause} (h : taken.reverse = front ++ [clause]) :
    ended keyword taken = ended keyword [clause] := by
  have htaken : taken = clause :: front.reverse := by
    rw [← List.reverse_reverse taken, h, List.reverse_append]
    rfl
  rw [htaken]
  cases clause <;> rfl

/-- As long as the last clause has not come, a sequence may go on with either kind. -/
theorem Sequence.snoc (h : Sequence kinds last taken.reverse)
    (hlast : ended keyword [last] = true) (hended : ended keyword taken = false)
    (hclause : clause ∈ kinds ∨ clause = last) :
    Sequence kinds last (taken.reverse ++ [clause]) := by
  obtain ⟨front, m, hfront, hm, heq⟩ := h
  have hzero : m = 0 := by
    rcases Nat.le_one_iff_eq_zero_or_eq_one.1 hm with hm | rfl
    · exact hm
    · rw [ended_of_reverse heq, hlast] at hended
      cases hended
  rw [hzero, List.replicate_zero, List.append_nil] at heq
  rw [heq]
  rcases hclause with hkind | rfl
  · refine ⟨front ++ [clause], 0, ?_, Nat.zero_le 1, (List.append_nil _).symm⟩
    intro c hc
    rcases List.mem_append.1 hc with hc | hc
    · exact hfront c hc
    · rw [List.mem_singleton.1 hc]
      exact hkind
  · exact ⟨front, 1, hfront, Nat.le_refl 1, rfl⟩

/-- A further clause keeps the order. -/
theorem InOrder.snoc (h : InOrder keyword taken.reverse)
    (hnext : next? keyword taken line = some (clause, t)) :
    InOrder keyword (taken.reverse ++ [clause]) := by
  obtain ⟨hended, hadmitted⟩ := admitted_of_next? hnext
  unfold InOrder at h ⊢
  unfold admitted at hadmitted
  by_cases hif : keyword = "if".toList
  · rw [if_pos hif] at h hadmitted ⊢
    apply h.snoc (by rw [hif]; rfl) hended
    simpa using hadmitted
  · rw [if_neg hif] at h hadmitted ⊢
    by_cases htry : keyword = "try".toList
    · rw [if_pos htry] at h hadmitted ⊢
      apply h.snoc rfl hended
      simpa [or_assoc] using hadmitted
    · rw [if_neg htry] at hadmitted
      cases hadmitted

end Clause

/-! ## One statement from its start to its end -/

namespace Outline

variable {recognise : Text → Option Recognition} {s : Setting} {level : Nat}
  {source keyword w w' : Text} {outer inner : List Frame} {taken clauses : List Clause}
  {o o' o'' : Outline}

/-- Moves on top of the open blocks `base`, which stay as they are all the while. -/
inductive Above (recognise : Text → Option Recognition) (s : Setting) (base : List Frame) :
    Outline → Text → Outline → Prop
  | refl {o : Outline} (hbase : base <:+ o.stack) : Above recognise s base o [] o
  | step {o o' o'' : Outline} {w w' : Text} (hbase : base <:+ o.stack)
      (hs : Steps recognise s o w o') (hm : Above recognise s base o' w' o'') :
      Above recognise s base o (w ++ w') o''

/-- What a statement at `level` on top of the open blocks `outer` takes up and writes from now on,
when it has taken the clauses `taken`: content and then its end, or content, a clause and so on. -/
inductive Absorbs (recognise : Text → Option Recognition) (s : Setting) (level : Nat)
    (keyword : Text) (outer : List Frame) :
    List Clause → Outline → List Clause → Text → Outline → Prop
  | close {taken : List Clause} {o : Outline} {line next : Line} {cur : Cursor} {content : Text}
      (hcontent : Above recognise s (.statement level keyword taken :: outer) o content
        ⟨.statement level keyword taken :: outer, line, false, cur⟩)
      (hclose : Steps recognise s ⟨.statement level keyword taken :: outer, line, false, cur⟩
        (statementEndLine s.delimiters keyword) ⟨outer, next, false, cur⟩) :
      Absorbs recognise s level keyword outer taken o []
        (content ++ statementEndLine s.delimiters keyword) ⟨outer, next, false, cur⟩
  | clause {taken clauses : List Clause} {clause : Clause} {o o' : Outline} {line : Line}
      {cur cur' : Cursor} {content t written rest w : Text}
      (hcontent : Above recognise s (.statement level keyword taken :: outer) o content
        ⟨.statement level keyword taken :: outer, line, false, cur⟩)
      (hlevel : line.indent = level)
      (hnext : Clause.next? keyword taken line.body = some (clause, t))
      (hread : clause.read s.delimiters t cur = (.ok (written, rest), cur'))
      (hmore : Absorbs recognise s level keyword outer (clause :: taken)
        ⟨Opening.statementFrames level keyword (clause :: taken) rest ++ outer, ⟨level, rest⟩,
          !rest.isEmpty, cur'⟩ clauses w o') :
      Absorbs recognise s level keyword outer taken o (clause :: clauses)
        (content ++ written ++ w) o'

/-- In the course of the compilation of `source`, when `before` has been written, a statement opens
a block at `level` on top of the open blocks `outer`. -/
inductive OpensStatement (recognise : Text → Option Recognition) (s : Setting) (source : Text) :
    (level : Nat) → (keyword : Text) → (outer : List Frame) → (before : Text) → Outline → Prop
  | mk {outer : List Frame} {line : Line} {cur cur' : Cursor} {found : Recognition}
      {before written keyword rest : Text}
      (hreach : Moves recognise s (.ofDocument source) before ⟨outer, line, true, cur⟩)
      (hfound : recognise line.body = some found)
      (hopen : found.headline.opening s line.indent line.body cur =
        (.ok (.statement written keyword rest), cur')) :
      OpensStatement recognise s source line.indent keyword outer (before ++ written)
        ⟨Opening.statementFrames line.indent keyword [] rest ++ outer, ⟨line.indent, rest⟩,
          !rest.isEmpty, cur'⟩

/-- The clauses that a statement takes are in order. -/
theorem Absorbs.inOrder (h : Absorbs recognise s level keyword outer taken o clauses w o')
    (htaken : Clause.InOrder keyword taken.reverse) :
    Clause.InOrder keyword (taken.reverse ++ clauses) := by
  induction h with
  | close hcontent hclose =>
    rw [List.append_nil]
    exact htaken
  | clause hcontent hlevel hnext hread hmore ih =>
    rename_i taken clauses clause _ _ _ _ _ _ _ _ _ _
    have hsnoc : Clause.InOrder keyword (clause :: taken).reverse := by
      rw [List.reverse_cons]
      exact htaken.snoc hnext
    have hall := ih hsnoc
    rwa [List.reverse_cons, List.append_assoc, List.singleton_append] at hall

/-- A move above the statement belongs to its content. -/
theorem Absorbs.prepend (hbase : .statement level keyword taken :: outer <:+ o.stack)
    (hs : Steps recognise s o w o')
    (h : Absorbs recognise s level keyword outer taken o' clauses w' o'') :
    Absorbs recognise s level keyword outer taken o clauses (w ++ w') o'' := by
  cases h with
  | close hcontent hclose =>
    rw [← List.append_assoc]
    exact .close (.step hbase hs hcontent) hclose
  | clause hcontent hlevel hnext hread hmore =>
    rw [← List.append_assoc, ← List.append_assoc]
    exact .clause (.step hbase hs hcontent) hlevel hnext hread hmore

/-- What a move does to an open statement: it leaves it open, ends it, or goes on it with a
clause. -/
theorem Steps.statement_cases (h : Steps recognise s o w o')
    (hstack : o.stack = inner ++ .statement level keyword taken :: outer) :
    (∃ inner', o'.stack = inner' ++ .statement level keyword taken :: outer) ∨
      (∃ line next cur, o = ⟨.statement level keyword taken :: outer, line, false, cur⟩ ∧
        w = statementEndLine s.delimiters keyword ∧ o' = ⟨outer, next, false, cur⟩) ∨
      ∃ line cur cur' clause t rest,
        o = ⟨.statement level keyword taken :: outer, line, false, cur⟩ ∧ line.indent = level ∧
        Clause.next? keyword taken line.body = some (clause, t) ∧
        clause.read s.delimiters t cur = (.ok (w, rest), cur') ∧
        o' = ⟨Opening.statementFrames level keyword (clause :: taken) rest ++ outer,
          ⟨level, rest⟩, !rest.isEmpty, cur'⟩ := by
  cases h with
  | look hfound hopen =>
    rename_i stack line cur cur' found opening
    left
    refine ⟨opening.frames line.indent ++ inner, ?_⟩
    rw [List.append_assoc, ← hstack]
  | announce ha => exact .inl ⟨inner, hstack⟩
  | pull hpull hbody hnext => exact .inl ⟨inner, hstack⟩
  | handOn ha =>
    rcases List.cons_eq_append_iff.1 hstack with ⟨-, heq⟩ | ⟨inner', -, heq⟩
    · cases heq
      exact .inr (.inl ⟨_, _, _, rfl, rfl, rfl⟩)
    · exact .inl ⟨inner', heq⟩
  | finish hpull hbody hnext =>
    rcases List.cons_eq_append_iff.1 hstack with ⟨-, heq⟩ | ⟨inner', -, heq⟩
    · cases heq
      exact .inr (.inl ⟨_, _, _, rfl, rfl, rfl⟩)
    · exact .inl ⟨inner', heq⟩
  | clause hbody hnext hread =>
    rename_i keyword' taken' outer' line clause t rest cur cur'
    rcases List.cons_eq_append_iff.1 hstack with ⟨-, heq⟩ | ⟨inner', -, heq⟩
    · cases heq
      exact .inr (.inr ⟨_, _, _, _, _, _, rfl, rfl, hnext, hread, rfl⟩)
    · left
      refine ⟨Opening.statementFrames line.indent keyword' (clause :: taken') rest ++ inner', ?_⟩
      rw [List.append_assoc, ← heq]

/-- Moves up to the end of the template take an open statement to its end. -/
theorem Moves.exists_absorbs {line : Line} {cur : Cursor}
    (h : Moves recognise s o w ⟨[], line, false, cur⟩)
    (hstack : o.stack = inner ++ .statement level keyword taken :: outer) :
    ∃ clauses w' o' more, Absorbs recognise s level keyword outer taken o clauses w' o' ∧
      w = w' ++ more := by
  generalize hlast : (⟨[], line, false, cur⟩ : Outline) = last at h
  induction h generalizing inner taken with
  | refl o =>
    rw [← hlast] at hstack
    exact absurd hstack.symm (by simp)
  | step hs hm ih =>
    rename_i o o₁ o₂ w₁ w₂
    rcases hs.statement_cases hstack with ⟨inner', hinner⟩ | ⟨line', next, cur', rfl, rfl, rfl⟩ |
      ⟨line', cur', cur'', clause, t, rest, rfl, hlevel, hnext, hread, rfl⟩
    · obtain ⟨clauses, w', o', more, habsorbs, rfl⟩ := ih hinner hlast
      refine ⟨clauses, w₁ ++ w', o', more, habsorbs.prepend ?_ hs, by rw [List.append_assoc]⟩
      rw [hstack]
      exact List.suffix_append _ _
    · exact ⟨[], _, _, w₂, .close (.refl List.suffix_rfl) hs, rfl⟩
    · have hframes : Opening.statementFrames level keyword (clause :: taken) rest ++ outer =
          (if rest.isEmpty then [] else [.inline level []]) ++
            .statement level keyword (clause :: taken) :: outer := List.append_assoc _ _ _
      obtain ⟨clauses, w', o', more, habsorbs, rfl⟩ := ih hframes hlast
      refine ⟨clause :: clauses, _, o', more,
        .clause (.refl List.suffix_rfl) hlevel hnext hread habsorbs, ?_⟩
      rw [List.nil_append, List.append_assoc]

end Outline

/-! ## All statements of a template -/

/-- If a template compiles, whatever compiles the markup embedded in it, then every statement in it
comes to its end, with all that it writes in the result, and the clauses that it takes are in
order. -/
theorem Profile.clauses_in_order (p : Profile) (hp : p.rules.Sublist Rule.standard)
    (embedded : Text → Except Diagnostic Text) (source out : Text)
    (h : p.compileWith embedded source = .ok out) (level : Nat) (keyword before : Text)
    (outer : List Frame) (o : Outline)
    (hopens : Outline.OpensStatement p.recognise (p.setting embedded) source level keyword outer
      before o) :
    (∃ clauses w o' more,
      Outline.Absorbs p.recognise (p.setting embedded) level keyword outer [] o clauses w o' ∧
        out = before ++ w ++ more) ∧
      ∀ clauses w o',
        Outline.Absorbs p.recognise (p.setting embedded) level keyword outer [] o clauses w o' →
          Clause.InOrder keyword clauses := by
  constructor
  · obtain ⟨written, last, result, cur, hmoves, hstop, hresult⟩ :=
      p.exists_moves_of_compileWith hp embedded source
    rw [h] at hresult
    cases result with
    | error e => cases hresult
    | ok line =>
      cases hresult
      obtain rfl := Outline.eq_of_step_eq_stop hstop
      cases hopens with
      | mk hreach hfound hopen =>
        obtain ⟨more, rfl, hmore⟩ := hmoves.passes (hreach.trans (.single (.look hfound hopen)))
        obtain ⟨clauses, w, o', more', habsorbs, rfl⟩ :=
          hmore.exists_absorbs (List.append_assoc _ _ _)
        refine ⟨clauses, w, o', more', habsorbs, ?_⟩
        rw [List.append_assoc _ w more']
        rfl
  · intro clauses w o' habsorbs
    exact habsorbs.inOrder (Clause.inOrder_nil keyword)

/-- A conditional with content on its line, a guarded block in its second part, and an
alternative. -/
theorem Profile.conditional_clauses_in_order :
    ∃ o, Outline.OpensStatement (mako id).recognise
        ((mako id).setting ((mako id).compileEmbedded 3 3))
        "-if a: p\n-elif b\n  -try\n  -except E: i\n-else\n".toList 0 "if".toList [.document]
        "\n%if a:\n".toList o ∧
      ∃ clauses w o' more,
        Outline.Absorbs (mako id).recognise ((mako id).setting ((mako id).compileEmbedded 3 3)) 0
          "if".toList [.document] [] o clauses w o' ∧
        "\n%if a:\n<p></p>\n%elif b:\n\n%try:\n\n%except E:\n<i></i>\n%endtry\n".toList ++
            "\n%else:\n\n%endif\n".toList = "\n%if a:\n".toList ++ w ++ more ∧
        Clause.InOrder "if".toList clauses := by
  have hcompile : (mako id).compileWith ((mako id).compileEmbedded 3 3)
      "-if a: p\n-elif b\n  -try\n  -except E: i\n-else\n".toList =
        .ok ("\n%if a:\n<p></p>\n%elif b:\n\n%try:\n\n%except E:\n<i></i>\n%endtry\n".toList ++
          "\n%else:\n\n%endif\n".toList) := by
    decide +kernel
  have hreach : Outline.Moves (mako id).recognise
      ((mako id).setting ((mako id).compileEmbedded 3 3))
      (.ofDocument "-if a: p\n-elif b\n  -try\n  -except E: i\n-else\n".toList) []
      ⟨[.document], ⟨0, "-if a: p".toList⟩, true,
        ⟨Text.lines "-elif b\n  -try\n  -except E: i\n-else\n".toList, 1⟩⟩ :=
    @Outline.moves_first _ _ "-if a: p".toList _ (by decide) rfl (by decide) _
  have hopen : (Headline.statement "if".toList " a: p".toList).opening
      ((mako id).setting ((mako id).compileEmbedded 3 3)) 0 "-if a: p".toList
      ⟨Text.lines "-elif b\n  -try\n  -except E: i\n-else\n".toList, 1⟩ =
        (.ok (.statement "\n%if a:\n".toList "if".toList ['p']),
          ⟨Text.lines "-elif b\n  -try\n  -except E: i\n-else\n".toList, 1⟩) := by
    decide +kernel
  have hopens := Outline.OpensStatement.mk hreach rfl hopen
  obtain ⟨⟨clauses, w, o', more, habsorbs, hwritten⟩, horder⟩ :=
    clauses_in_order (mako id) mako_isStandard _ _ _ hcompile _ _ _ _ _ hopens
  exact ⟨_, hopens, clauses, w, o', more, habsorbs, hwritten, horder clauses w o' habsorbs⟩

/-- A guarded block takes an alternative after an alternative, which is not an order of handlers,
one alternative and a final clause. -/
theorem Profile.guarded_block_takes_two_alternatives :
    (mako id).compile ⟨false, 3⟩ "-try\n-else\n-else\n".toList =
        .ok "\n%try:\n\n%else:\n\n%else:\n\n%endtry\n".toList ∧
      (∃ o, Outline.OpensStatement (mako id).recognise
          ((mako id).setting ((mako id).compileEmbedded 3 3))
          "-try\n-else\n-else\n".toList 0 "try".toList [.document] "\n%try:\n".toList o ∧
        Outline.Absorbs (mako id).recognise ((mako id).setting ((mako id).compileEmbedded 3 3)) 0
          "try".toList [.document] [] o [.otherwise, .otherwise]
          "\n%else:\n\n%else:\n\n%endtry\n".toList
          ⟨[.document], .none, false, ⟨[], 3⟩⟩) ∧
      ¬ ∃ front m, Clause.Sequence [.except] .otherwise front ∧ m ≤ 1 ∧
        [.otherwise, .otherwise] = front ++ List.replicate m .lastly := by
  refine ⟨by decide +kernel, ?_, ?_⟩
  · have hreach : Outline.Moves (mako id).recognise
        ((mako id).setting ((mako id).compileEmbedded 3 3))
        (.ofDocument "-try\n-else\n-else\n".toList) []
        ⟨[.document], ⟨0, "-try".toList⟩, true, ⟨Text.lines "-else\n-else\n".toList, 1⟩⟩ :=
      @Outline.moves_first _ _ "-try".toList _ (by decide) rfl (by decide) _
    have hopen : (Headline.statement "try".toList []).opening
        ((mako id).setting ((mako id).compileEmbedded 3 3)) 0 "-try".toList
        ⟨Text.lines "-else\n-else\n".toList, 1⟩ =
          (.ok (.statement "\n%try:\n".toList "try".toList []),
            ⟨Text.lines "-else\n-else\n".toList, 1⟩) := rfl
    have hopens := Outline.OpensStatement.mk hreach rfl hopen
    -- Both lines are pulled and taken as clauses, and then the template ends.
    have habsorbs : Outline.Absorbs (mako id).recognise
        ((mako id).setting ((mako id).compileEmbedded 3 3)) 0 "try".toList [.document] []
        ⟨[.statement 0 "try".toList [], .document], ⟨0, []⟩, false,
          ⟨Text.lines "-else\n-else\n".toList, 1⟩⟩ [.otherwise, .otherwise] _
        ⟨[.document], .none, false, ⟨[], 3⟩⟩ :=
      .clause (.step List.suffix_rfl (.pull trivial rfl rfl) (.refl List.suffix_rfl)) rfl rfl rfl
        (.clause (.step List.suffix_rfl (.pull trivial rfl rfl) (.refl List.suffix_rfl)) rfl rfl rfl
          (.close (.refl List.suffix_rfl) (.finish trivial rfl rfl)))
    exact ⟨_, hopens, habsorbs⟩
  · rintro ⟨front, m, ⟨handlers, n, hhandlers, hn, rfl⟩, hm, heq⟩
    have hnone : handlers.count Clause.otherwise = 0 := by
      apply List.count_eq_zero.2
      intro hmem
      cases List.mem_singleton.1 (hhandlers _ hmem)
    have hcount : 2 = n := by
      simpa [List.count_append, List.count_replicate, hnone] using
        congrArg (List.count Clause.otherwise) heq
    omega

end TerseMarkup
