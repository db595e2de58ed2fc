import TerseMarkup.Proofs.Fault
import TerseMarkup.Proofs.Parallel

/-!
# Rules for lines that no rule recognises

A rule that is added goes in front of all others. If it recognises only lines that had no rule
before, then the enlarged table sees in every line what the old one saw in it, and more lines.

A compilation that succeeds has recognised every line it looked up, the rest of a headline and the
lines of a statement included, and a line that goes on a statement is not looked up at all. So the
new rule never gets its turn.

* `Outline.run_of_recognises`: a run that succeeds makes the same moves under a table that sees
  the same in every line and recognises more lines.
* `Profile.compileWith_of_not_mem`: without backticks nothing depends on how embedded markup is
  compiled. With them it may: a span that no rule recognises is kept as it is written.
* `Profile.compile_addRule`: what compiles without backticks compiles to the same with the new rule.
-/

namespace TerseMarkup

/-! ## Runs under more rules -/

namespace Outline

variable {recognise recognise' : Text → Option Recognition} {s : Setting} {o o' : Outline}
  {w : Text}

/-- A move that goes on is the same move if more lines are recognised. -/
theorem Steps.of_recognises
    (hmore : ∀ line found, recognise line = some found → recognise' line = some found)
    (h : Steps recognise s o w o') : Steps recognise' s o w o' := by
  cases h with
  | look hfound hopen => exact .look (hmore _ _ hfound) hopen
  | announce h => exact .announce h
  | handOn h => exact .handOn h
  | finish hpull hbody hnext => exact .finish hpull hbody hnext
  | pull hpull hbody hnext => exact .pull hpull hbody hnext
  | clause hbody hnext hread => exact .clause hbody hnext hread

/-- A run that succeeds is the same run if more lines are recognised. -/
theorem run_of_recognises
    (hmore : ∀ line found, recognise line = some found → recognise' line = some found)
    {passage : Passage} {cur : Cursor} (h : o.run recognise s = (.ok passage, cur)) :
    o.run recognise' s = (.ok passage, cur) := by
  fun_induction run recognise s o generalizing passage cur with
  | case1 o result cur' hstep =>
    cases result with
    | error e => cases h
    | ok line =>
      obtain rfl := eq_of_step_eq_stop hstep
      have hstop : (⟨[], line, false, cur'⟩ : Outline).step recognise' s = .stop (.ok line) cur' :=
        rfl
      rw [run_of_stop hstop]
      exact h
  | case2 o w next hstep hlt passage' cur' hrun ih =>
    have hstep' : o.step recognise' s = .go w next :=
      step_of_steps ((steps_of_step hstep).of_recognises hmore)
    rw [run, hstep']
    simp only [if_pos hlt, ih hrun]
    exact h
  | case3 => cases h
  | case4 => cases h

end Outline

namespace Profile

variable {p : Profile} {source : Text}

/-! ## Templates without backticks -/

/-- Without backticks it does not matter how embedded markup is compiled. -/
theorem compileWith_of_not_mem (hp : p.IsStandard) (hticks : '\x60' ∉ source)
    (f g : Text → Except Diagnostic Text) : p.compileWith g source = p.compileWith f source := by
  -- A compiler that finds all markup too deep is never asked, and so no other is.
  have hasked (g : Text → Except Diagnostic Text) :
      p.compileWith g source = p.compileWith (p.compileEmbedded 0 0) source := by
    have hresults : (Comparison.deeper p.delimiters).Results
        (p.compileWith (p.compileEmbedded 0 0) source) (p.compileWith g source) :=
      Comparison.compileWith_alike hp
        (Comparison.renderSpans_alike fun t _ => Comparison.Fragments.excused
          (show (Comparison.deeper p.delimiters).excused _ from ⟨0, rfl⟩) (g t)) (.inl rfl)
    rcases hresults.eq_or_excused rfl with heq | ⟨e, he, limit, rfl⟩
    · exact heq
    · rcases fault_cases hp he with ⟨n, body, hbody, -⟩ |
          ⟨n, -, -, hraised | ⟨markup, d, -, -, -, hcount⟩⟩
      · cases hbody
      · exact hraised.elim
      · rw [List.count_eq_zero.2 hticks] at hcount
        omega
  rw [hasked f, hasked g]

/-! ## The new rule -/

/-- A rule for unrecognised lines changes nothing about the lines that are recognised. -/
theorem recognise_addRule {rule : Rule}
    (hnew : ∀ line, (p.recognise line).isSome → rule.recognise line = none) {line : Text}
    {found : Recognition} (h : p.recognise line = some found) :
    (p.addRule rule).recognise line = some found := by
  have hnone : rule.recognise line = none := hnew line (by rw [h]; rfl)
  unfold recognise lookUp addRule at *
  rw [List.findSome?_cons, hnone]
  exact h

/-- A compilation that succeeds comes to the same, whatever compiles the markup embedded in it. -/
theorem compileWith_addRule {rule : Rule}
    (hnew : ∀ line, (p.recognise line).isSome → rule.recognise line = none)
    {embedded : Text → Except Diagnostic Text} {out : Text}
    (h : p.compileWith embedded source = .ok out) :
    (p.addRule rule).compileWith embedded source = .ok out := by
  unfold compileWith at h ⊢
  -- Delimiters and transpilers are those of the old profile.
  rw [show (p.addRule rule).setting embedded = p.setting embedded from rfl]
  cases hrun : (Outline.ofDocument source).run p.recognise (p.setting embedded) with
  | mk result cur =>
    rw [hrun] at h
    obtain ⟨passage, rfl, -⟩ := exists_of_map_eq_ok h
    rw [Outline.run_of_recognises (fun _ _ => recognise_addRule hnew) hrun]
    exact h

/-- A rule for unrecognised lines is a conservative extension: a template without backticks that
compiles compiles to the same with it. -/
theorem compile_addRule (hp : p.rules.Sublist Rule.standard) {rule : Rule}
    (hnew : ∀ line, (p.recognise line).isSome → rule.recognise line = none) (options : Options)
    (hticks : '\x60' ∉ source) {out : Text} (h : p.compile options source = .ok out) :
    (p.addRule rule).compile options source = .ok out := by
  unfold compile at h ⊢
  obtain ⟨written, hwritten, rfl⟩ := exists_of_map_eq_ok h
  have hother : p.compileWith ((p.addRule rule).compileEmbedded options.depth options.depth)
      source = .ok written := (compileWith_of_not_mem hp hticks _ _).trans hwritten
  rw [compileWith_addRule hnew hother]
  rfl

/-- A rule for lines that start with an at sign leaves clauses and inline headlines alone. -/
theorem compile_addRule_at_sign :
    (∀ line, ((mako id).recognise line).isSome →
      (Rule.byStart "at_sign" (·.head? == some '@') fun _ => .element).recognise line = none) ∧
    ((mako id).addRule (.byStart "at_sign" (·.head? == some '@') fun _ => .element)).compile {}
        "-if a: p x\n-else\n  ul: li y\n".toList =
      .ok "%if a:\n<p>x</p>\n%else:\n<ul><li>y</li></ul>\n%endif".toList := by
  have hnew : ∀ line, ((mako id).recognise line).isSome →
      (Rule.byStart "at_sign" (·.head? == some '@') fun _ => .element).recognise line = none := by
    intro line hsome
    cases line with
    | nil => rfl
    | cons c t =>
      by_cases hc : c = '@'
      · subst hc
        have hnone : (mako id).recognise ('@' :: t) = none := rfl
        rw [hnone] at hsome
        cases hsome
      · simp [Rule.byStart, hc]
  refine ⟨hnew, compile_addRule mako_isStandard hnew {} (by decide) ?_⟩
  decide +kernel

-- With backticks the new rule may be noticed.
example : (mako id).compile {} "p `@x`".toList = .ok "<p>`@x`</p>".toList ∧
    ((mako id).addRule (.byStart "at_sign" (·.head? == some '@') fun _ => .html)).compile {}
      "p `@x`".toList = .ok "<p>@x\n</p>".toList := by
  decide +kernel

end Profile

end TerseMarkup
