import TerseMarkup.Proofs.Fault

/-!
# The line of a fault in a literal block

The text of a literal block is trimmed, aligned and joined before its spans of markup are read, but
each line of the block stays one line of the text. So the line of a span that fails can be counted
in the text.

* `exists_of_alignLines` finds the raw line that a character of the aligned text is from.
* `TickFrom.of_literalText` counts the lines in front of a backtick.
* `literalBlock_error_line`: the number is that of the source line with the opening backtick, if
  that stands below the headline. If it stands on the headline, the number is that of the line that
  was handed out last. This is the same line unless the headline was put together from several, as
  that of a statement can be, whose expression goes on: `Profile.compile_joined_headline`.
-/

namespace TerseMarkup

/-! ## The line that a character is from -/

/-- A character that is no line feed is in the part in front of a line feed or behind it. -/
theorem append_feed_eq_append {x y before after : Text} {c : Char} (hc : c ≠ '\n')
    (h : x ++ '\n' :: y = before ++ c :: after) :
    (∃ more, x = before ++ c :: more) ∨
      ∃ before', before = x ++ '\n' :: before' ∧ y = before' ++ c :: after := by
  rcases List.append_eq_append_iff.1 h with ⟨between, rfl, hy⟩ | ⟨between, rfl, hc'⟩
  · cases between with
    | nil => exact absurd (List.cons.inj hy).1.symm hc
    | cons b between =>
      obtain ⟨rfl, rfl⟩ := List.cons.inj hy
      exact .inr ⟨between, rfl, rfl⟩
  · cases between with
    | nil => exact absurd (List.cons.inj hc').1 hc
    | cons b between =>
      obtain ⟨rfl, -⟩ := List.cons.inj hc'
      exact .inl ⟨between, rfl⟩

/-- A character of the aligned text is from the line that as many lines of the block stand in front
of as line feeds stand in front of the character. -/
theorem exists_of_alignLines {block : List Text} (hblock : ∀ raw ∈ block, raw.OneLine)
    {margin : Option Nat} {before after : Text} {c : Char} (hc : c ≠ '\n')
    (h : alignLines margin block = before ++ c :: after) :
    ∃ front raw back x pad y, block = front ++ raw :: back ∧
      before = alignLines margin front ++ x ∧ raw = pad ++ x ++ c :: y ∧
        before.count '\n' = front.length := by
  induction block generalizing margin before with
  | nil =>
    cases before with
    | nil => cases h
    | cons b before => cases h
  | cons raw block ih =>
    obtain ⟨hraw, hrest⟩ := List.forall_mem_cons.1 hblock
    obtain ⟨shown, margin', ⟨pad, tail, hshown⟩, hfeed, halign⟩ :=
      exists_alignLines_cons hraw margin
    rw [halign] at h
    rcases append_feed_eq_append hc h with ⟨more, rfl⟩ | ⟨before', rfl, hmore⟩
    · refine ⟨[], raw, block, before, pad, more ++ tail, rfl, rfl, ?_, ?_⟩
      · rw [← hshown]
        simp
      · exact List.count_eq_zero.2 fun hmem => hfeed (List.mem_append_left _ hmem)
    · obtain ⟨front, raw', back, x, pad', y, rfl, rfl, rfl, hcount⟩ := ih hrest hmore
      refine ⟨raw :: front, _, back, x, pad', y, rfl, ?_, rfl, ?_⟩
      · rw [halign]
        simp
      · rw [List.count_append, List.count_eq_zero.2 hfeed, List.count_cons_self, hcount,
          List.length_cons, Nat.zero_add]

/-! ## Literal blocks -/

/-- The text of the headline, on a line of its own, if there is any. -/
def literalLead (headline : Text) : Text :=
  let first := Text.trim (headline.drop 1)
  if first.isEmpty then [] else first ++ ['\n']

/-- The text starts with the headline if there is text on that, and with the block otherwise. -/
theorem literalText_eq (headline : Text) (block : List Text) :
    literalText headline block =
      Text.trimEnd (literalLead headline ++ alignLines .none block) ++
        if headline.head? = some ',' then [' '] else [] := by
  have hlead : literalLead headline ++ alignLines .none block =
      if (Text.trim (headline.drop 1)).isEmpty then alignLines .none block
      else Text.trim (headline.drop 1) ++ '\n' :: alignLines .none block := by
    unfold literalLead
    simp only
    split
    · rfl
    · rw [List.append_assoc]
      rfl
  rw [hlead]
  unfold literalText
  simp only
  split
  · rfl
  · rw [List.append_nil]

/-- Nothing that is trimmed or put behind the text is a backtick. -/
theorem exists_of_literalText {headline : Text} {block : List Text} {before after : Text}
    (h : literalText headline block = before ++ '\x60' :: after) :
    ∃ after', literalLead headline ++ alignLines .none block = before ++ '\x60' :: after' := by
  rw [literalText_eq] at h
  obtain ⟨u, hu, -⟩ :=
    Text.exists_trimEnd_append (literalLead headline ++ alignLines .none block)
  generalize hsp : (if headline.head? = some ',' then [' '] else []) = sp at h
  have hspace : '\x60' ∉ sp := by
    rw [← hsp]
    split
    · decide
    · exact List.not_mem_nil
  rcases append_eq_append_cons h with ⟨front, hfront⟩ | ⟨more, hmore, -⟩
  · refine absurd ?_ hspace
    rw [hfront]
    exact List.mem_append_right front List.mem_cons_self
  · refine ⟨more ++ u, ?_⟩
    rw [hu, hmore]
    simp

/-- Where a backtick in the text of a literal block comes from: `before` is the text in front of it,
and the number is that of a line of the source. The block starts behind line `n`. -/
inductive TickFrom (source : Text) (n : Nat) (headline : Text) (block : List Text) (before : Text) :
    Nat → Prop
  | below {front back : List Text} {raw x pad y : Text} (hblock : block = front ++ raw :: back)
      (hbefore : before = literalLead headline ++ alignLines .none front ++ x)
      (hraw : raw = pad ++ x ++ '\x60' :: y)
      (hsource : source.lines[n + front.length]? = some raw) :
      TickFrom source n headline block before (n + front.length + 1)
  | headline {y : Text} (hfirst : Text.trim (headline.drop 1) = before ++ '\x60' :: y) :
      TickFrom source n headline block before n

section

variable {s : Setting} {source headline before after : Text} {block : List Text} {level n k : Nat}

/-- The line is found by counting the line feeds in front of the backtick. -/
theorem TickFrom.of_literalText (hhead : Text.OneLine (headline.drop 1))
    (hblock : block <+: source.lines.drop n)
    (h : literalText headline block = before ++ '\x60' :: after) :
    TickFrom source n headline block before
      ((if (Text.trim (headline.drop 1)).isEmpty then n + 1 else n) + before.count '\n') := by
  have hlines : ∀ raw ∈ block, raw.OneLine := by
    intro raw hraw
    exact Text.oneLine_of_mem_lines (List.mem_of_mem_drop (hblock.subset hraw))
  have hfeed := hhead.feed_not_mem_trim
  obtain ⟨after', heq⟩ := exists_of_literalText h
  -- Below the headline, its text is one line more.
  have hbelow {before' : Text} (hbefore : before = literalLead headline ++ before')
      (hlead : (if (Text.trim (headline.drop 1)).isEmpty then n + 1 else n) +
        (literalLead headline).count '\n' = n + 1)
      (heq : alignLines .none block = before' ++ '\x60' :: after') :
      TickFrom source n headline block before
        ((if (Text.trim (headline.drop 1)).isEmpty then n + 1 else n) + before.count '\n') := by
    obtain ⟨front, raw, back, x, pad, y, rfl, rfl, hraw, hcount⟩ :=
      exists_of_alignLines hlines (by decide) heq
    obtain ⟨more, hmore⟩ := hblock
    have hsource : source.lines[n + front.length]? = some raw := by
      rw [← List.getElem?_drop, ← hmore, List.append_assoc,
        List.getElem?_append_right (Nat.le_refl _)]
      simp
    have hnumber : (if (Text.trim (headline.drop 1)).isEmpty then n + 1 else n) +
        before.count '\n' = n + front.length + 1 := by
      rw [hbefore, List.count_append, ← Nat.add_assoc, hlead, hcount]
      omega
    rw [hnumber]
    exact .below rfl (by rw [hbefore, List.append_assoc]) hraw hsource
  by_cases hempty : (Text.trim (headline.drop 1)).isEmpty = true
  · have hlead : literalLead headline = [] := if_pos hempty
    rw [hlead] at heq
    refine hbelow (by rw [hlead]; rfl) ?_ heq
    rw [hlead, if_pos hempty]
    rfl
  · have hlead : literalLead headline = Text.trim (headline.drop 1) ++ ['\n'] := if_neg hempty
    rw [hlead, List.append_assoc] at heq
    rcases append_feed_eq_append (by decide) heq with ⟨y, hfirst⟩ | ⟨before', hbefore, hrest⟩
    · have hcount : before.count '\n' = 0 := by
        refine List.count_eq_zero.2 fun hmem => hfeed ?_
        rw [hfirst]
        exact List.mem_append_left _ hmem
      rw [if_neg hempty, hcount]
      exact .headline hfirst
    · refine hbelow (by rw [hlead, hbefore, List.append_assoc]; rfl) ?_ hrest
      rw [hlead, if_neg hempty, List.count_append, List.count_eq_zero.2 hfeed]
      rfl

/-- A backtick below the headline stands on the line with its number, and so does one on a headline
that is a piece of its line. -/
theorem TickFrom.exists_line {raw : Text} (h : TickFrom source n headline block before k)
    (hline : source.lines[n - 1]? = some raw) (hcut : headline.drop 1 <:+: raw) :
    ∃ line pad x y, source.lines[k - 1]? = some line ∧ x <:+ before ∧
      line = pad ++ x ++ '\x60' :: y := by
  cases h with
  | below hblock hbefore hraw hsource =>
    exact ⟨_, _, _, _, hsource, ⟨_, hbefore.symm⟩, hraw⟩
  | @headline y hfirst =>
    obtain ⟨pad, tail, hpad⟩ := (Text.trim_isInfix _).trans hcut
    refine ⟨raw, pad, before, y ++ tail, hline, List.suffix_refl before, ?_⟩
    rw [← hpad, hfirst]
    simp

/-- If a literal block has a fault with a line number, the number is that of the line where the
opening backtick of the first span that fails comes from. It is the line of the source with this
backtick, if the headline is a piece of the line that was handed out last. -/
theorem literalBlock_error_line {e : Diagnostic} {cur' : Cursor}
    (hhead : Text.OneLine (headline.drop 1))
    (h : literalBlock s level headline true ⟨source.lines.drop n, n⟩ = (.error e, cur'))
    (hk : e.line? = some k) :
    ∃ block next before after,
      rawBlock level ⟨source.lines.drop n, n⟩ = (.ok (block, next), cur') ∧
      literalText headline block = before ++ '\x60' :: after ∧
      PassesSpans s.embedded before ('\x60' :: after) ∧
      SpanFails s.embedded k ('\x60' :: after) e ∧
      TickFrom source n headline block before k ∧
      ∀ raw, source.lines[n - 1]? = some raw → headline.drop 1 <:+: raw →
        ∃ line pad x y, source.lines[k - 1]? = some line ∧ x <:+ before ∧
          line = pad ++ x ++ '\x60' :: y := by
  obtain ⟨block, next, hblock, hspans⟩ := literalBlock_eq_error h
  obtain ⟨before, rest, htext, hpasses, hfails⟩ := renderSpans_eq_error_iff.1 hspans
  obtain ⟨after, rfl⟩ := hfails.exists_cons
  obtain ⟨stops, hpulled⟩ := rawBlock_pulled hblock
  have hstart : block <+: source.lines.drop n := by
    refine ⟨stops ++ cur'.ahead, ?_⟩
    rw [← List.append_assoc]
    exact hpulled.ahead.symm
  have hfrom := TickFrom.of_literalText hhead hstart htext
  obtain rfl := hfails.line_eq hk
  exact ⟨block, next, before, after, hblock, htext, hpasses, hfails, hfrom,
    fun raw hline hcut => hfrom.exists_line hline hcut⟩

end

/-- The spans in front may go on over lines. -/
theorem literalBlock_error_line_crossing :
    literalBlock ((Profile.mako id).setting ((Profile.mako id).compile ⟨false, 3⟩)) 0
        "| a \x60b".toList true
        ⟨(Text.lines "| a \x60b\n  c\x60 d\n\n   \x60p#a id=b\x60\n".toList).drop 1, 1⟩ =
      (.error (secondId "p#a id=b".toList 4), ⟨[], 4⟩) ∧
    ∃ line pad x y,
      (Text.lines "| a \x60b\n  c\x60 d\n\n   \x60p#a id=b\x60\n".toList)[3]? = some line ∧
        line = pad ++ x ++ '\x60' :: y := by
  have h : literalBlock ((Profile.mako id).setting ((Profile.mako id).compile ⟨false, 3⟩)) 0
      "| a \x60b".toList true
        ⟨(Text.lines "| a \x60b\n  c\x60 d\n\n   \x60p#a id=b\x60\n".toList).drop 1, 1⟩ =
      (.error (secondId "p#a id=b".toList 4), ⟨[], 4⟩) := by
    decide +kernel
  have hhead : Text.OneLine (List.drop 1 "| a \x60b".toList) :=
    Text.oneLine_of_not_mem (by decide)
  obtain ⟨block, next, before, after, -, -, -, -, -, hline⟩ :=
    literalBlock_error_line (k := 4) hhead h rfl
  obtain ⟨line, pad, x, y, hsource, -, hraw⟩ :=
    hline "| a \x60b\n".toList rfl ⟨['|'], ['\n'], rfl⟩
  exact ⟨h, line, pad, x, y, hsource, hraw⟩

/-- The headline of a statement can be put together from several lines. A fault of markup on the
first of them is then reported at the last. -/
theorem Profile.compile_joined_headline :
    (Profile.mako id).compile ⟨false, 64⟩ "-if a: (see \x60p#a id=b\x60\n  end)\n".toList =
      .error (secondId "p#a id=b".toList 2) ∧
    (Text.lines "-if a: (see \x60p#a id=b\x60\n  end)\n".toList)[1]? = some "  end)\n".toList ∧
    '\x60' ∉ "  end)\n".toList := by
  refine ⟨?_, rfl, ?_⟩
  · decide +kernel
  · decide

end TerseMarkup
