import Mathlib.Algebra.Group.Nat.Defs
import TerseMarkup.Diagnostic.Report
import TerseMarkup.Proofs.Fault
import TerseMarkup.Proofs.Parallel

/-!
# Faults of a template with embedded markup

Markup embedded in text is compiled as a template of its own, with lines of its own, level by level.

* `Profile.compile_fault_in_template`: whatever is wrong at whatever level, the fault points to a
  line of the template, and how embedded markup counts its lines does not matter.
* `Profile.compile_ne_tooDeep`: every level costs twice the backticks, so only a template with very
  many of them can be nested too deep.
-/

namespace TerseMarkup

/-! ## Reports -/

/-- The diagnostic points to the line `n` of the template, and its report shows that line. -/
structure Diagnostic.PointsTo (e : Diagnostic) (source : Text) (n : Nat) : Prop where
  line : e.line? = some n
  pos : 1 ≤ n
  le : n ≤ source.lines.length
  /-- The line stands in the report without its terminator, in a row of its own behind its
  number. -/
  shown : ∃ raw, source.lines[n - 1]? = some raw ∧ ∀ palette file,
    gutter palette n (Text.ofNat n) ++ [' '] ++ raw.dropTerminator ++ ['\n'] <:+:
      e.report palette source file

namespace Diagnostic

variable {e : Diagnostic} {source : Text} {n : Nat}

/-- The report of a diagnostic shows the line that it points to. -/
theorem excerpt_isInfix_report (h : e.line? = some n) (palette : Palette) (source file : Text) :
    excerpt palette source n <:+: e.report palette source file := by
  unfold report
  simp only [h, Option.map_some, Option.getD_some]
  exact (List.infix_append _ _ _).trans (List.prefix_append _ _).isInfix

/-- A diagnostic that points to a line between the first and the last one is shown with it. -/
theorem pointsTo_of_le (hline : e.line? = some n) (hpos : 1 ≤ n) (hle : n ≤ source.lines.length) :
    e.PointsTo source n := by
  have hlt : n - 1 < source.lines.length := by omega
  have hraw : source.lines[n - 1]? = some source.lines[n - 1] := List.getElem?_eq_getElem hlt
  refine ⟨hline, hpos, hle, _, hraw, fun palette file => ?_⟩
  apply List.IsInfix.trans _ (excerpt_isInfix_report hline palette source file)
  unfold excerpt sourceLine?
  rw [hraw, Option.map_some]
  exact List.infix_append _ _ _

end Diagnostic

namespace Profile

variable {p : Profile} {source : Text} {e : Diagnostic}

/-! ## Lines -/

/-- What can be wrong with embedded markup. -/
theorem compileEmbedded_fault (hp : p.IsStandard) {limit levels : Nat} {t : Text}
    (h : p.compileEmbedded limit levels t = .error e) :
    e = .tooDeep limit ∨ (∃ n body, e = .unrecognised n body) ∨ ∃ n, e.RaisedAt n := by
  induction levels generalizing t e with
  | zero =>
    cases h
    exact .inl rfl
  | succ levels ih =>
    rcases fault_cases hp h with ⟨n, body, he, -⟩ | ⟨n, -, -, hraised | ⟨markup, d, hd, -, rfl, -⟩⟩
    · exact .inr (.inl ⟨n, body, he⟩)
    · exact .inr (.inr ⟨n, hraised⟩)
    · rcases ih hd with rfl | ⟨m, body, rfl⟩ | ⟨m, hraised⟩
      · exact .inl rfl
      · exact .inr (.inl ⟨n, body, rfl⟩)
      · exact .inr (.inr ⟨n, hraised.atLine n⟩)

/-- What can be wrong with a template, and where. -/
theorem compileWith_fault (hp : p.IsStandard) {limit levels : Nat}
    (h : p.compileWith (p.compileEmbedded limit levels) source = .error e) :
    e = .tooDeep limit ∨ ∃ n, 1 ≤ n ∧ n ≤ source.lines.length ∧ (e.RaisedAt n ∨ ∃ body,
      e = .unrecognised n body ∧ p.Overlooks (p.compileEmbedded limit levels) source n body) := by
  rcases fault_cases hp h with ⟨n, body, he, hover, hpos, hle⟩ |
      ⟨n, hpos, hle, hraised | ⟨markup, d, hd, hknown, rfl, -⟩⟩
  · exact .inr ⟨n, hpos, hle, .inr ⟨body, he, hover⟩⟩
  · exact .inr ⟨n, hpos, hle, .inl hraised⟩
  · rcases compileEmbedded_fault hp hd with rfl | ⟨m, body, rfl⟩ | ⟨m, hraised⟩
    · exact .inl rfl
    · exact absurd rfl (hknown m body)
    · exact .inr ⟨n, hpos, hle, .inl (hraised.atLine n)⟩

/-- How embedded markup counts its lines does not matter. -/
theorem compileWith_renumbered (hp : p.IsStandard) (embedded : Text → Except Diagnostic Text)
    (renumber : Text → Nat) (source : Text) :
    p.compileWith (fun t => (embedded t).mapError (Diagnostic.atLine (renumber t))) source =
      p.compileWith embedded source := by
  have hresults : (Comparison.between p.delimiters p.delimiters).Results
      (p.compileWith embedded source)
      (p.compileWith (fun t => (embedded t).mapError (Diagnostic.atLine (renumber t))) source) := by
    refine Comparison.compileWith_alike hp (Comparison.renderSpans_alike fun t _ => ?_) (.inl rfl)
    cases embedded t with
    | ok out => exact .ok (.refl out)
    | error d => exact .error (d.atLine_atLine (renumber t) 0)
  rcases hresults.eq_or_excused rfl with heq | ⟨e, -, he⟩
  · exact heq
  · exact he.elim

/-- Faults point into the template: a fault is that markup is nested too deep, or it points to a
line of the template, which is shown. If it is that no rule recognises a line, then that is a line
of the template itself, and not one of markup embedded in it. With other line numbers for the faults
of embedded markup the fault is the same. -/
theorem compile_fault_in_template (hp : p.rules.Sublist Rule.standard) {options : Options}
    (h : p.compile options source = .error e) :
    (e = .tooDeep options.depth ∨ ∃ n, e.PointsTo source n) ∧
    (∀ n body, e = .unrecognised n body →
      p.Overlooks (p.compileEmbedded options.depth options.depth) source n body) ∧
    ∀ renumber : Text → Nat, p.compileWith (fun markup =>
      (p.compileEmbedded options.depth options.depth markup).mapError
        (Diagnostic.atLine (renumber markup))) source = .error e := by
  have hfault : p.compileWith (p.compileEmbedded options.depth options.depth) source = .error e :=
    eq_error_of_map_eq_error h
  refine ⟨?_, ?_, fun renumber => (compileWith_renumbered hp _ renumber source).trans hfault⟩
  · rcases compileWith_fault hp hfault with he | ⟨n, hpos, hle, hraised | ⟨body, rfl, -⟩⟩
    · exact .inl he
    · exact .inr ⟨n, Diagnostic.pointsTo_of_le (hraised.line?_eq hpos) hpos hle⟩
    · have hline : (Diagnostic.unrecognised n body).line? = some n :=
        if_neg (Nat.one_le_iff_ne_zero.1 hpos)
      exact .inr ⟨n, Diagnostic.pointsTo_of_le hline hpos hle⟩
  · rintro n body rfl
    rcases compileWith_fault hp hfault with he | ⟨m, -, -, hraised | ⟨body', he, hover⟩⟩
    · cases he
    · exact hraised.elim
    · cases he
      exact hover

/-- An open bracket on the second line of markup is reported at the line where the markup starts. -/
theorem compile_fault_in_literal :
    (mako id).compile {} "p x\n| one\n  two `i\n b = (`\n".toList = .error (.unterminated 3 ['(']) ∧
      (Diagnostic.unterminated 3 ['(']).PointsTo "p x\n| one\n  two `i\n b = (`\n".toList 3 := by
  have h : (mako id).compile {} "p x\n| one\n  two `i\n b = (`\n".toList =
      .error (.unterminated 3 ['(']) := by decide +kernel
  refine ⟨h, ?_⟩
  rcases (compile_fault_in_template mako_isStandard h).1 with he | ⟨n, hpoints⟩
  · cases he
  · cases hpoints.line
    exact hpoints

/-! ## Depth -/

/-- Markup that is nested too deep has twice the backticks for every level. -/
theorem pow_le_count_of_tooDeep (hp : p.IsStandard) {limit limit' levels : Nat} {t : Text}
    (h : p.compileEmbedded limit levels t = .error (.tooDeep limit')) :
    2 ^ (levels + 1) - 2 ≤ t.count '\x60' := by
  -- The fault of the innermost level goes out from level to level, and every span on its way has
  -- two backticks for each one in its markup, and two of its own.
  induction levels generalizing t with
  | zero => exact Nat.zero_le _
  | succ levels ih =>
    rcases fault_cases hp h with ⟨n, body, he, -⟩ | ⟨n, -, -, hraised | ⟨markup, d, hd, -, he, hle⟩⟩
    · cases he
    · exact hraised.elim
    · cases d with
      | tooDeep =>
        cases he
        have hmarkup := ih hd
        rw [pow_succ]
        omega
      | _ => cases he

/-- Depth is logarithmic: a template with few backticks is never nested too deep. -/
theorem compile_ne_tooDeep (hp : p.rules.Sublist Rule.standard) (options : Options)
    (hticks : source.count '\x60' < 2 ^ (options.depth + 2) - 2) (limit : Nat) :
    p.compile options source ≠ .error (.tooDeep limit) := by
  intro h
  have hfault : p.compileEmbedded options.depth (options.depth + 1) source =
      .error (.tooDeep limit) := eq_error_of_map_eq_error h
  exact absurd hticks (Nat.not_lt.2 (pow_le_count_of_tooDeep hp hfault))

/-- Four backticks are not enough for a depth of two. -/
theorem compile_two_spans_ne_tooDeep :
    "p `b x` or `i y`".toList.count '\x60' < 2 ^ (1 + 2) - 2 ∧
      (mako id).compile ⟨true, 1⟩ "p `b x` or `i y`".toList ≠ .error (.tooDeep 1) := by
  have hticks : "p `b x` or `i y`".toList.count '\x60' < 2 ^ (1 + 2) - 2 := by decide
  exact ⟨hticks, compile_ne_tooDeep mako_isStandard ⟨true, 1⟩ hticks 1⟩

-- Six are: the bound is sharp.
example : "p a `b ``i x`` y` c".toList.count '\x60' = 2 ^ (1 + 2) - 2 ∧
    (mako id).compile ⟨true, 1⟩ "p a `b ``i x`` y` c".toList = .error (.tooDeep 1) := by
  decide +kernel

end Profile

end TerseMarkup
