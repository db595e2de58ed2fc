import TerseMarkup.Proofs.SpanFault
import TerseMarkup.Proofs.Termination
import TerseMarkup.Proofs.Trimming
import TerseMarkup.Proofs.Yield

/-!
# Where faults point to

A reader that fails has a line of the template at hand, and its fault carries the number of that
line (`Scan.FailsHere`). All that can go wrong below the level of headlines is that the template
ends inside a group (`Scan.FailsOpen`). Markup embedded in text is the exception: it has lines of
its own, and what is wrong in it is reported at the line of the text where it starts
(`renderSpans_fault`). A text may have been read over several lines, so that line lies between two
cursors (`Scan.FailsFrom`).

* `Headline.opening_fails`: every headline of the standard rules fails in one of these ways.
* `Outline.Fails.cases`: so does every move.
* `Profile.fault_cases`: a compilation fails at a line that no rule recognises, at a line where a
  reader is, or at a line where markup starts that cannot be compiled. Such markup has fewer than
  half of the backticks of the template.
-/

namespace TerseMarkup

open Place (Yields)

namespace Diagnostic

/-- The diagnostic is one that readers raise, and it was raised at the line with the number `n`. -/
def RaisedAt (n : Nat) : Diagnostic → Prop
  | malformed _ _ m | unterminated m _ | noTranspiler _ m => m = n
  | unrecognised _ _ | tooDeep _ | unknownProfile _ => False

/-- A fault that was raised at some line and is moved counts as raised at its new line. -/
theorem RaisedAt.atLine {e : Diagnostic} {m : Nat} (h : e.RaisedAt m) (n : Nat) :
    (e.atLine n).RaisedAt n := by
  cases e with
  | malformed | unterminated | noTranspiler => rfl
  | unrecognised | tooDeep | unknownProfile => exact h.elim

/-- A fault raised at a line says that line. -/
theorem RaisedAt.line?_eq {e : Diagnostic} {n : Nat} (h : e.RaisedAt n) (hn : 1 ≤ n) :
    e.line? = some n := by
  have hne : n ≠ 0 := Nat.one_le_iff_ne_zero.1 hn
  cases e with
  | malformed message locus m | unterminated m read | noTranspiler language m =>
    have hm : m = n := h
    rw [hm]
    exact if_neg hne
  | unrecognised | tooDeep | unknownProfile => exact h.elim

end Diagnostic

/-! ## Readers that fail where they are -/

namespace Scan

variable {α β : Type}

/-- A scan that fails raises its fault at the line where its cursor is then. -/
def FailsHere (x : Scan α) : Prop :=
  ∀ cur e cur', x cur = (.error e, cur') → e.RaisedAt cur'.number

/-- Nothing fails in handing back a value. -/
theorem failsHere_pure (a : α) : FailsHere (pure a : Scan α) := by
  intro cur e cur' h
  cases h

/-- A reader that raises a fault of the line at hand fails at that line. -/
theorem failsHere_failAt {e : Nat → Diagnostic} (he : ∀ n, (e n).RaisedAt n) :
    FailsHere (lineNumber >>= fun n => (fail (e n) : Scan α)) := by
  intro cur d cur' h
  cases h
  exact he cur.number

/-- Two readers in a row fail at the line at hand if each of them does. -/
theorem FailsHere.bind {x : Scan α} {f : α → Scan β} (hx : FailsHere x)
    (hf : ∀ a, FailsHere (f a)) : FailsHere (x >>= f) := by
  intro cur e cur' h
  rcases bind_eq_error_iff.1 h with hfault | ⟨a, cur₁, -, hfault⟩
  · exact hx cur e cur' hfault
  · exact hf a cur₁ e cur' hfault

/-- A scan that fails has come to the end of the template inside a group. -/
def FailsOpen (x : Scan α) : Prop :=
  ∀ cur e cur', x cur = (.error e, cur') → ∃ read, e = .unterminated cur'.number read

/-- Nothing is left open in handing back a value. -/
theorem failsOpen_pure (a : α) : FailsOpen (pure a : Scan α) := by
  intro cur e cur' h
  cases h

/-- Two readers in a row fail at open groups only if each of them does. -/
theorem FailsOpen.bind {x : Scan α} {f : α → Scan β} (hx : FailsOpen x)
    (hf : ∀ a, FailsOpen (f a)) : FailsOpen (x >>= f) := by
  intro cur e cur' h
  rcases bind_eq_error_iff.1 h with hfault | ⟨a, cur₁, -, hfault⟩
  · exact hx cur e cur' hfault
  · exact hf a cur₁ e cur' hfault

/-- A group that is still open is reported at the line at hand. -/
theorem FailsOpen.failsHere {x : Scan α} (hx : FailsOpen x) : FailsHere x := by
  intro cur e cur' h
  obtain ⟨read, rfl⟩ := hx cur e cur' h
  rfl

end Scan

open Scan (FailsHere failsHere_pure failsHere_failAt FailsOpen failsOpen_pure)

/-- A search for the closing mark fails at the end of the template only. -/
theorem Nesting.failsOpen_close (n : Nesting) (depth : Nat) (read tail : Text) :
    FailsOpen (n.close depth read tail) := by
  intro cur e cur' h
  fun_induction n.close depth read tail cur with
  | case1 depth read tail cur mark r hm ih => exact ih h
  | case2 => cases h
  | case3 depth read tail cur mark r hm hd ih => exact ih h
  | case4 =>
    cases h
    exact ⟨_, rfl⟩
  | case5 depth read tail cur hm hend raw cur₁ hn ih => exact ih h
  | case6 depth read tail cur hm hend literal r hq ih => exact ih h
  | case7 =>
    cases h
    exact ⟨_, rfl⟩
  | case8 depth read cur c r hm hend hq ih => exact ih h

/-- A group that starts here fails by being left open. -/
theorem Nesting.failsOpen_group? (n : Nesting) (t : Text) : FailsOpen (n.group? t) := by
  intro cur e cur' h
  unfold group? at h
  split at h
  · cases h
  · split at h
    · cases h
    · rename_i hc
      cases h
      exact n.failsOpen_close _ _ _ _ _ _ hc

/-- So does a group of a nesting that may be missing. -/
theorem failsOpen_groupOf? (n : Option Nesting) (t : Text) : FailsOpen (groupOf? n t) := by
  cases n with
  | none => exact failsOpen_pure none
  | some n => exact n.failsOpen_group? t

/-- An atom fails by the group it starts. -/
theorem failsOpen_atom (n : Option Nesting) (c : Char) (t : Text) : FailsOpen (atom n c t) := by
  intro cur e cur' h
  unfold atom at h
  split at h
  · rename_i hg
    cases h
    exact failsOpen_groupOf? n (c :: t) _ _ _ hg
  · cases h
  · split at h
    · cases h
    · split at h
      · rename_i hg
        cases h
        exact Nesting.brackets.failsOpen_group? (c :: t) _ _ _ hg
      · cases h
      · cases h

/-- A run of atoms fails by a group in it. -/
theorem failsOpen_atoms (n : Nesting) (stops : List Text) (tail : Text) :
    FailsOpen (atoms n stops tail) := by
  intro cur e cur' h
  fun_induction atoms n stops tail cur generalizing e cur' with
  | case1 => cases h
  | case2 => cases h
  | case3 cur c t hs e₁ cur₁ ha =>
    cases h
    exact failsOpen_atom (some n) c t _ _ _ ha
  | case4 cur c t hs a rest cur₁ ha e₁ cur₂ hm ih =>
    cases h
    exact ih _ _ hm
  | case5 => cases h

/-- A token fails by a group in it. -/
theorem failsOpen_token? (n : Nesting) (lead : Text) (stops : List Text) (line : Text) :
    FailsOpen (token? n lead stops line) := by
  intro cur e cur' h
  unfold token? at h
  split at h
  · cases h
  · split at h
    · cases h
    · split at h
      · rename_i ha
        cases h
        exact failsOpen_atoms n stops _ _ _ _ ha
      · cases h

/-- The atoms of an expression fail by a group among them. -/
theorem failsOpen_expressionAtoms (tail : Text) : FailsOpen (expressionAtoms tail) := by
  intro cur e cur' h
  fun_induction expressionAtoms tail cur generalizing e cur' with
  | case1 => cases h
  | case2 => cases h
  | case3 tail cur hne found c t cur₁ hs e₁ cur₂ ha =>
    cases h
    exact failsOpen_atom none c t _ _ _ ha
  | case4 tail cur hne found c t cur₁ hs a rest cur₂ ha e₁ cur₃ hm ih =>
    cases h
    exact ih _ _ hm
  | case5 => cases h

/-- An expression fails by a group in it. -/
theorem failsOpen_expression (t : Text) : FailsOpen (expression t) := by
  intro cur e cur' h
  unfold expression at h
  split at h
  · cases h
  · rename_i hr
    cases h
    exact failsOpen_expressionAtoms _ _ _ _ hr

/-! ## Elements -/

/-- What a pass over the attributes fails with is raised where it is, and no pass changes what the
passes after it come to. -/
def Pass.FailsHere {σ α : Type} : Pass σ (Outcome α) → Prop
  | .done r => ∀ e cur, r = (.error e, cur) → e.RaisedAt cur.number
  | .again _ _ wrap => wrap = fun r => r

section

variable (d : Delimiters) (parens : Bool)

/-- A splat fails by a group in its token. -/
theorem failsOpen_splat? (line : Text) : FailsOpen (splat? d parens line) := by
  intro cur e cur' h
  unfold splat? at h
  split at h
  · cases h
  · split at h
    · rename_i ht
      cases h
      exact failsOpen_token? d.placeholder [] _ _ _ _ _ ht
    · cases h
    · split at h <;> cases h

/-- A value behind the equals sign fails by a group in it. -/
theorem failsOpen_assignment? (name t : Text) : FailsOpen (assignment? d parens name t) := by
  intro cur e cur' h
  unfold assignment? at h
  split at h
  · cases h
  · split at h
    · cases h
    · split at h
      · rename_i ht
        cases h
        exact failsOpen_token? d.placeholder [] _ _ _ _ _ ht
      · cases h
      · simp only at h
        split at h <;> cases h

/-- An attribute fails by a group in its splat or in its value. -/
theorem failsOpen_attribute? (line : Text) : FailsOpen (attribute? d parens line) := by
  intro cur e cur' h
  unfold attribute? at h
  split at h
  · rename_i ht
    cases h
    exact failsOpen_token? d.placeholder [] _ _ _ _ _ ht
  · cases h
  · split at h
    · cases h
    · split at h
      · exact failsOpen_assignment? d parens _ _ _ _ _ h
      · split at h <;> cases h

/-- A pass over the attributes fails where it is: at a second id, at a parenthesis that is never
closed, or at a group left open. -/
theorem attributePass_failsHere (line idText : Text) (list : AttributeList) (place : Place) :
    (attributePass d parens line idText list place).FailsHere := by
  unfold attributePass
  split
  split
  · rename_i hs
    intro e cur h
    cases h
    exact (failsOpen_splat? d parens _).failsHere _ _ _ hs
  · rfl
  · split
    · rename_i ha
      intro e cur h
      cases h
      exact (failsOpen_attribute? d parens _).failsHere _ _ _ ha
    · split
      · intro e cur h
        cases h
        rfl
      · rfl
    · split
      · split
        · intro e cur h
          cases h
          rfl
        · rfl
      · intro e cur h
        cases h

/-- A list of attributes fails at the line at hand. -/
theorem failsHere_readAttributes (line idText : Text) (list : AttributeList) (tail : Text) :
    FailsHere (readAttributes d parens line idText list tail) := by
  intro cur
  refine (attributePass_iterates d parens line idText).induction
    (attributePass_advances d parens line idText)
    (Q := fun _ _ r => ∀ e cur', r = (.error e, cur') → e.RaisedAt cur'.number) ?_ ?_
    list ⟨tail, cur⟩
  · intro list place r hdone
    have hpass := attributePass_failsHere d parens line idText list place
    rw [hdone] at hpass
    exact hpass
  · intro list place list' place' wrap hagain ih
    have hpass := attributePass_failsHere d parens line idText list place
    rw [hagain] at hpass
    have hwrap : wrap = fun r => r := hpass
    rw [hwrap]
    exact ih

/-- The shortcut for an id fails by a group in its token. -/
theorem failsOpen_idShortcut (t : Text) : FailsOpen (idShortcut d t) := by
  apply FailsOpen.bind (failsOpen_token? d.placeholder ['#'] shortcutStops t)
  intro found
  cases found with
  | none => exact failsOpen_pure _
  | some found => exact failsOpen_pure _

/-- The shortcuts for classes fail by a group in one of their tokens. -/
theorem failsOpen_classShortcuts (t : Text) : FailsOpen (classShortcuts d t) := by
  intro cur e cur' h
  fun_induction classShortcuts d t cur generalizing e cur' with
  | case1 t cur e₁ cur₁ ht =>
    cases h
    exact failsOpen_token? d.placeholder ['.'] shortcutStops t _ _ _ ht
  | case2 => cases h
  | case3 t cur name rest cur₁ ht e₁ cur₂ hm ih =>
    cases h
    exact ih _ _ hm
  | case4 => cases h

end

/-- Following continuations does not fail. -/
theorem failsHere_continued (t : Text) : FailsHere (continued t) := by
  intro cur e cur' h
  cases h

/-- A missing closing parenthesis is reported at the line at hand. -/
theorem failsHere_closeParens (parens : Bool) (t : Text) : FailsHere (closeParens parens t) := by
  unfold closeParens
  split
  · split
    · exact failsHere_pure _
    · exact failsHere_failAt fun _ => rfl
  · exact failsHere_pure _

/-- A value behind an equals sign fails by a group in it. -/
theorem failsOpen_inlineValue (d : Delimiters) (t : Text) : FailsOpen (inlineValue d t) :=
  (failsOpen_expression _).bind fun _ => failsOpen_pure _

/-! ## Statements and blocks of raw lines -/

section

variable (d : Delimiters) (s : Setting) (level : Nat)

/-- A statement fails where a group of its expression is left open. -/
theorem failsHere_splitStatement (t : Text) : FailsHere (splitStatement d t) := by
  apply (failsOpen_expression t).failsHere.bind
  intro expr
  apply FailsHere.bind (failsOpen_token? d.placeholder [] [[':'], ['\n']] expr).failsHere
  intro found
  cases found with
  | none => exact failsHere_pure _
  | some found => exact failsHere_pure _

/-- The search for a colon fails at a group that is left open in front of it. -/
theorem failsHere_restAfterColon (t : Text) : FailsHere (restAfterColon d t) := by
  apply FailsHere.bind (failsOpen_token? d.placeholder [] [[':'], ['\n']] t).failsHere
  intro found
  cases found with
  | none => exact failsHere_pure _
  | some found => exact failsHere_pure _

/-- The headline of a statement fails at a group that is left open. -/
theorem failsHere_openStatement (keyword t : Text) : FailsHere (openStatement d keyword t) := by
  unfold openStatement
  split
  · exact failsHere_pure _
  · exact (failsHere_splitStatement d t).bind fun _ => failsHere_pure _

/-- The headline of a negated condition fails at a group that is left open. -/
theorem failsHere_openNegated (keyword t : Text) : FailsHere (openNegated d keyword t) :=
  (failsOpen_expression t).failsHere.bind fun _ => failsHere_openStatement d keyword _

/-- A clause fails where its line has a group left open, whichever clause it is. -/
theorem Clause.failsHere_read (clause : Clause) (t : Text) : FailsHere (clause.read d t) := by
  cases clause with
  | elif | except => exact (failsHere_splitStatement d t).bind fun _ => failsHere_pure _
  | otherwise | lastly => exact (failsHere_restAfterColon d t).bind fun _ => failsHere_pure _

/-- Lines that are taken as they are do not fail. -/
theorem failsHere_rawBlock : FailsHere (rawBlock level) := by
  intro cur e cur' h
  cases h

/-- Lines that are copied as they are do not fail. -/
theorem failsHere_verbatimBlock : FailsHere (verbatimBlock s level) := by
  intro cur e cur' h
  cases h

/-- Code does not fail: it is not looked into. -/
theorem failsHere_openCode (moduleLevel : Bool) (expr : Option Text) :
    FailsHere (openCode s level moduleLevel expr) := by
  apply (failsHere_verbatimBlock s level).bind
  intro body
  simp only
  split
  · exact failsHere_pure _
  · exact failsHere_pure _

/-- Code behind a fence fails at a group that is left open on its headline. -/
theorem failsHere_openFencedCode (moduleLevel : Bool) (expr : Option Text) :
    FailsHere (openFencedCode s level moduleLevel expr) := by
  cases expr with
  | none => exact failsHere_openCode s level moduleLevel none
  | some t =>
    apply FailsHere.bind
      (failsOpen_token? s.delimiters.placeholder [] ["---".toList, ['\n']] t).failsHere
    intro found
    exact failsHere_openCode s level moduleLevel _

/-- A block in another markup language fails if there is no transpiler for it. -/
theorem failsHere_openMarkup (language : Text) : FailsHere (openMarkup s level language) := by
  unfold openMarkup
  split
  · exact failsHere_failAt fun _ => rfl
  · exact (failsHere_verbatimBlock s level).bind fun _ => failsHere_pure _

end

/-! ## Markup in text -/

/-- The fault `e` was raised at one of the lines from `low` to `high`, or it is the fault of markup
with fewer than half of `ticks` backticks, moved to one of these lines. -/
def FaultIn (compile : Text → Except Diagnostic Text) (low high ticks : Nat) (e : Diagnostic) :
    Prop :=
  ∃ n, low ≤ n ∧ n ≤ high ∧
    (e.RaisedAt n ∨ ∃ markup d, compile markup = .error d ∧ (∀ k body, d ≠ .unrecognised k body) ∧
      e = d.atLine n ∧ 2 * markup.count '\x60' + 2 ≤ ticks)

section

variable {compile : Text → Except Diagnostic Text} {e : Diagnostic}

/-- A fault stays one of embedded markup when its bounds are widened. -/
theorem FaultIn.mono {low low' high high' ticks ticks' : Nat} (h : FaultIn compile low high ticks e)
    (hlow : low' ≤ low) (hhigh : high ≤ high') (hticks : ticks ≤ ticks') :
    FaultIn compile low' high' ticks' e := by
  obtain ⟨n, hge, hle, hfault⟩ := h
  refine ⟨n, Nat.le_trans hlow hge, Nat.le_trans hle hhigh, hfault.imp_right ?_⟩
  rintro ⟨markup, d, hd, hknown, he, hcount⟩
  exact ⟨markup, d, hd, hknown, he, Nat.le_trans hcount hticks⟩

/-- A fault of a text is raised at one of its lines, or it is that of markup in it. -/
theorem renderSpans_fault {n : Nat} {t : Text} (h : renderSpans compile n t = .error e) :
    FaultIn compile n (n + t.count '\n') (t.count '\x60') e := by
  obtain ⟨before, rest, rfl, -, hfails⟩ := renderSpans_eq_error_iff.1 h
  refine ⟨n + before.count '\n', Nat.le_add_right _ _, ?_, ?_⟩
  · rw [List.count_append]
    omega
  · cases hfails with
    | unclosed => exact .inl rfl
    | @markup t markup written rest d hfirst hs hne hd hknown =>
      refine .inr ⟨markup.trim, d, hd, hknown, rfl, ?_⟩
      have hspan := count_closeSpan? hs
      have htrim := (Text.trim_isInfix markup).sublist.count_le '\x60'
      rw [eq_append_of_closeSpan? hs, List.count_append, List.count_cons_self, List.count_append]
      omega

end

/-! ## Readers of text with markup in it -/

/-- A scan that has come from `place` to `cur` fails where it is then, or at a line between `place`
and there, where markup starts. -/
def Scan.FailsFrom {α : Type} (compile : Text → Except Diagnostic Text) (place : Place)
    (cur : Cursor) (x : Scan α) : Prop :=
  ∀ e cur', x cur = (.error e, cur') → e.RaisedAt cur'.number ∨
    FaultIn compile place.cursor.number cur'.number (place.count '\x60') e

open Scan (FailsFrom)

section

variable {compile : Text → Except Diagnostic Text} {α β : Type} {place place' : Place}
  {cur cur' : Cursor}

/-- A cursor that is further on has a greater number. -/
theorem Cursor.Reaches.number_le (h : cur.Reaches cur') : cur.number ≤ cur'.number := by
  obtain ⟨lines, hpulled⟩ := h
  rw [hpulled.number]
  exact Nat.le_add_right _ _

/-- A reader that fails at the line at hand fails in the range from any cursor on. -/
theorem Scan.FailsHere.failsFrom {x : Scan α} (hx : FailsHere x) (cur : Cursor) :
    FailsFrom compile place cur x := by
  intro e cur' h
  exact .inl (hx cur e cur' h)

/-- The range of faults can be taken from a place that comes before. -/
theorem Scan.FailsFrom.of_yields {x : Scan α} (h : FailsFrom compile place' cur x)
    (hyields : place.Yields place') : FailsFrom compile place cur x := by
  intro e cur' he
  refine (h e cur' he).imp_right fun hfault => ?_
  exact hfault.mono hyields.reaches.number_le (Nat.le_refl _) (hyields.count_le _ (by decide))

/-- The first of two steps may read text with markup in it. -/
theorem Scan.FailsFrom.bind {x : Scan α} {f : α → Scan β} (hx : FailsFrom compile place cur x)
    (hf : ∀ a, FailsHere (f a)) : FailsFrom compile place cur (x >>= f) := by
  intro e cur' h
  rcases Scan.bind_eq_error_iff.1 h with hfault | ⟨a, cur₁, -, hfault⟩
  · exact hx e cur' hfault
  · exact .inl (hf a cur₁ e cur' hfault)

/-- The second of two steps may read text with markup in it. -/
theorem Scan.FailsHere.bind_from {x : Scan α} {f : α → Scan β} (hx : FailsHere x)
    (hf : ∀ a cur', x cur = (.ok a, cur') → FailsFrom compile place cur' (f a)) :
    FailsFrom compile place cur (x >>= f) := by
  intro e cur' h
  rcases Scan.bind_eq_error_iff.1 h with hfault | ⟨a, cur₁, ha, hfault⟩
  · exact .inl (hx cur e cur' hfault)
  · exact hf a cur₁ ha e cur' hfault

end

section

variable {s : Setting} {t line : Text} {cur : Cursor} {disguise : Option Disguise}

/-- Text on a line is all on that line. -/
theorem renderText_fails (hline : t.OneLine) :
    FailsFrom s.embedded ⟨t, cur⟩ cur (renderText s t.trim) := by
  intro e cur' h
  have hrender : (renderSpans s.embedded cur.number t.trim, cur) = (.error e, cur') := h
  obtain ⟨hspans, rfl⟩ := Prod.mk.inj hrender
  have hfeed : t.trim.count '\n' = 0 := List.count_eq_zero.2 hline.feed_not_mem_trim
  have hticks := (Text.trim_isInfix t).sublist.count_le '\x60'
  have hfault := renderSpans_fault hspans
  rw [hfeed] at hfault
  refine .inr (hfault.mono (Nat.le_refl _) (Nat.le_refl _) ?_)
  exact Nat.le_trans hticks (Nat.le_add_right _ _)

/-- The content of an inline element fails at its line, or in the markup embedded in it. -/
theorem inlineContent_fails (hline : t.OneLine) :
    FailsFrom s.embedded ⟨t, cur⟩ cur (inlineContent s t) := by
  unfold inlineContent
  split
  · exact (failsHere_pure _).failsFrom cur
  · rename_i c t
    have hmark : Yields ⟨c :: t, cur⟩ ⟨t, cur⟩ :=
      Place.yields_of_isInfix cur (List.suffix_cons c t).isInfix
    have hrest : Text.OneLine t := hline.of_isInfix (List.suffix_cons c t).isInfix
    split
    · exact (failsOpen_inlineValue s.delimiters t).failsHere.failsFrom cur
    · split
      · exact (renderText_fails hrest).of_yields hmark
      · split
        · exact ((renderText_fails hrest).of_yields hmark).bind fun _ => failsHere_pure _
        · exact renderText_fails hline

/-- The end of an element fails at its line, or in the markup embedded in its content. -/
theorem Element.finish_fails {name attributes : Text} (hline : t.OneLine) :
    FailsFrom s.embedded ⟨t, cur⟩ cur (Element.finish s name attributes t) := by
  unfold Element.finish
  simp only
  split
  · exact (failsHere_pure _).failsFrom cur
  · exact (inlineContent_fails hline).bind fun _ => failsHere_pure _

/-- The headline of an element is cut out of a line. -/
theorem Element.read_fails (hline : Place.OneLine ⟨line, cur⟩) (hcut : t <:+: line) :
    FailsFrom s.embedded ⟨line, cur⟩ cur (Element.read s disguise t) := by
  apply (failsOpen_idShortcut s.delimiters _).failsHere.bind_from
  intro ⟨idText, t₁⟩ cur₁ hid
  apply Scan.FailsHere.bind_from (failsOpen_classShortcuts s.delimiters t₁).failsHere
  intro ⟨classes, t₂⟩ cur₂ hclasses
  apply (failsHere_continued t₂.trimStart).bind_from
  intro t₃ cur₃ hbreaks
  apply Scan.FailsHere.bind_from (failsHere_readAttributes s.delimiters _ t idText _ _)
  intro ⟨list, t₄⟩ cur₄ hattributes
  apply (failsHere_closeParens _ t₄).bind_from
  intro t₅ cur₅ hparens
  have hleads := Element.leads_of_stages hid hclasses hbreaks hattributes hparens
  have hyields := (Place.yields_of_isInfix cur hcut).trans hleads.yields
  exact (Element.finish_fails (hyields.oneLine hline)).of_yields hyields

end

/-! ## Literal blocks -/

/-- A line of a block comes to a piece of it, with a line feed behind. -/
theorem exists_alignLines_cons {raw : Text} (hraw : raw.OneLine) (margin : Option Nat) :
    ∃ shown margin', shown <:+: raw ∧ '\n' ∉ shown ∧ ∀ block,
      alignLines margin (raw :: block) = shown ++ '\n' :: alignLines margin' block := by
  by_cases hbody : (Line.ofRaw raw).body.isEmpty = true
  · refine ⟨[], margin, List.nil_infix, List.not_mem_nil, fun block => ?_⟩
    simp only [alignLines, if_pos hbody]
    rfl
  · generalize hm : (margin.map (min (Line.ofRaw raw).indent)).getD (Line.ofRaw raw).indent = m
    have hcut : raw.drop m <:+: raw := (List.drop_suffix m raw).isInfix
    refine ⟨Text.trimEnd (raw.drop m), some m, ?_, ?_, fun block => ?_⟩
    · exact (Text.trimEnd_isPrefix _).isInfix.trans hcut
    · exact (hraw.of_isInfix hcut).feed_not_mem_trimEnd
    · simp only [alignLines, if_neg hbody, hm]

/-- Each line of a block comes to one line of its text. -/
theorem exists_alignLines_eq {block : List Text} (hblock : ∀ raw ∈ block, raw.OneLine)
    (margin : Option Nat) :
    ∃ y, '\n' :: alignLines margin block = y ++ ['\n'] ∧ y.count '\n' = block.length := by
  induction block generalizing margin with
  | nil => exact ⟨[], rfl, rfl⟩
  | cons raw block ih =>
    obtain ⟨hraw, hrest⟩ := List.forall_mem_cons.1 hblock
    obtain ⟨shown, margin', -, hfeed, halign⟩ := exists_alignLines_cons hraw margin
    obtain ⟨y, hy, hcount⟩ := ih hrest margin'
    refine ⟨'\n' :: (shown ++ y), ?_, ?_⟩
    · rw [halign, hy]
      simp
    · rw [List.count_cons_self, List.count_append, List.count_eq_zero.2 hfeed, hcount,
        List.length_cons, Nat.zero_add]

section

variable {s : Setting} {level : Nat} {headline line : Text} {block : List Text} {cur cur' : Cursor}

/-- The line feed that ends a text is not in the trimmed text, so it has no more line feeds than the
rest. -/
theorem count_feed_trimEnd_le {t y : Text} (h : t = y ++ ['\n']) :
    t.trimEnd.count '\n' ≤ y.count '\n' := by
  rw [h, Text.trimEnd_append_blank y (Text.forall_mem_of_all (by decide))]
  exact (Text.trimEnd_isPrefix y).sublist.count_le _

/-- The text of a literal block has no more lines than the block, and the headline has if there is
text on it. -/
theorem count_feed_literalText_le (hhead : Text.OneLine (headline.drop 1))
    (hblock : ∀ raw ∈ block, raw.OneLine) :
    if (Text.trim (headline.drop 1)).isEmpty
      then block ≠ [] → (literalText headline block).count '\n' + 1 ≤ block.length
      else (literalText headline block).count '\n' ≤ block.length := by
  rw [count_literalText (by decide)]
  obtain ⟨y, hy, hcount⟩ := exists_alignLines_eq hblock none
  split
  · intro hne
    -- The text starts with the first line of the block, so one line feed fewer is in front of it.
    cases y with
    | nil =>
      rw [List.count_nil] at hcount
      exact absurd (List.length_eq_zero_iff.1 hcount.symm) hne
    | cons c y =>
      obtain ⟨rfl, htail⟩ := List.cons.inj hy
      have hle := count_feed_trimEnd_le htail
      rw [List.count_cons_self] at hcount
      omega
  · have hfeed : (Text.trim (headline.drop 1)).count '\n' = 0 :=
      List.count_eq_zero.2 hhead.feed_not_mem_trim
    have hle := count_feed_trimEnd_le
      (List.append_assoc (Text.trim (headline.drop 1)) y ['\n']).symm
    rw [List.count_append, hfeed, hcount, Nat.zero_add] at hle
    rw [hy]
    exact hle

/-- A literal block that fails has read all its lines, and fails in the markup of their text. The
first line of the text is that of the headline, unless there is nothing behind the mark. -/
theorem literalBlock_eq_error {e : Diagnostic}
    (h : literalBlock s level headline true cur = (.error e, cur')) :
    ∃ block next, rawBlock level cur = (.ok (block, next), cur') ∧
      renderSpans s.embedded
        (if (Text.trim (headline.drop 1)).isEmpty then cur.number + 1 else cur.number)
        (literalText headline block) = .error e := by
  rcases Scan.bind_eq_error_iff.1 h with hn | ⟨n, cur₁, hn, h₁⟩
  · cases hn
  · cases hn
    rcases Scan.bind_eq_error_iff.1 h₁ with hblock | ⟨⟨block, next⟩, cur₂, hblock, h₂⟩
    · cases hblock
    · rcases Scan.bind_eq_error_iff.1 h₂ with hspans | ⟨_, _, _, h₃⟩
      · obtain ⟨hrender, rfl⟩ := Prod.mk.inj hspans
        exact ⟨block, next, hblock, hrender⟩
      · cases h₃

/-- A literal block fails in the markup of its text, at a line between the headline and the last
line read. -/
theorem literalBlock_fails (hline : Place.OneLine ⟨line, cur⟩) (hcut : headline.drop 1 <:+: line) :
    FailsFrom s.embedded ⟨line, cur⟩ cur (literalBlock s level headline true) := by
  intro e cur' h
  obtain ⟨block, next, hblock, hspans⟩ := literalBlock_eq_error h
  obtain ⟨stops, hpulled⟩ := rawBlock_pulled hblock
  have hnumber := hpulled.number
  rw [List.length_append] at hnumber
  have hlines : ∀ raw ∈ block, raw.OneLine := by
    intro raw hraw
    refine hline.ahead raw ?_
    rw [hpulled.ahead]
    exact List.mem_append_left _ (List.mem_append_left _ hraw)
  have hfeeds := count_feed_literalText_le (hline.text.of_isInfix hcut) hlines
  have hticks := literalText_count_le hblock hcut (c := '\x60') (by decide)
  have hfault := renderSpans_fault hspans
  right
  split at hfeeds
  · rename_i hempty
    rw [if_pos hempty] at hfault hspans
    by_cases hnil : block = []
    · -- Nothing but a space can be left, and nothing is wrong with that.
      have hplain : (literalText headline block).count '\x60' = 0 := by
        rw [count_literalText (by decide), if_pos hempty, hnil]
        rfl
      rw [renderSpans_of_not_mem s.embedded _ (List.count_eq_zero.1 hplain)] at hspans
      cases hspans
    · have hcount := hfeeds hnil
      exact hfault.mono (Nat.le_add_right _ _) (by omega) hticks
  · rename_i hempty
    rw [if_neg hempty] at hfault
    exact hfault.mono (Nat.le_refl _) (by omega) hticks

end

/-! ## Headlines -/

section

variable {s : Setting} {level : Nat} {line t : Text} {cur : Cursor}

/-- An element fails at its line, or in the markup embedded in it. -/
theorem openElement_fails (disguise : Option Disguise) (hline : Place.OneLine ⟨line, cur⟩) :
    FailsFrom s.embedded ⟨line, cur⟩ cur (openElement s disguise line) := by
  apply (Element.read_fails hline (Text.trim_isInfix line)).bind
  intro e
  split
  · exact failsHere_pure _
  · exact failsHere_pure _

/-- A call fails at its line, or in the markup embedded in its content. -/
theorem openCall_fails (headline : Text) (hline : Place.OneLine ⟨line, cur⟩) (hcut : t <:+: line) :
    FailsFrom s.embedded ⟨line, cur⟩ cur (openCall s headline t) := by
  apply (Element.read_fails hline hcut).bind
  intro e
  simp only
  split
  · exact failsHere_failAt fun _ => rfl
  · exact failsHere_pure _

/-- A headline fails where it is read, or where markup starts in its text. -/
theorem Headline.opening_fails {headline : Headline} (hseen : headline.SeenIn line)
    (hline : Place.OneLine ⟨line, cur⟩) :
    FailsFrom s.embedded ⟨line, cur⟩ cur (headline.opening s level line) := by
  cases headline with
  | verbatimElement =>
    exact (Element.read_fails hline (Text.trim_isInfix line)).bind fun _ =>
      (failsHere_verbatimBlock s level).bind fun _ => failsHere_pure _
  | doctype name => exact (failsHere_pure _).failsFrom cur
  | scriptTemplate => exact openElement_fails _ hline
  | element => exact openElement_fails _ hline
  | literal text => exact (literalBlock_fails hline hseen).bind fun _ => failsHere_pure _
  | html => exact (failsHere_pure _).failsFrom cur
  | value unescaped spaced expr =>
    exact ((failsHere_rawBlock level).bind fun _ => failsHere_pure _).failsFrom cur
  | comment => exact ((failsHere_rawBlock level).bind fun _ => failsHere_pure _).failsFrom cur
  | statement keyword expr => exact (failsHere_openStatement _ keyword expr).failsFrom cur
  | negated keyword expr => exact (failsHere_openNegated _ keyword expr).failsFrom cur
  | fencedCode moduleLevel expr =>
    exact (failsHere_openFencedCode s level moduleLevel expr).failsFrom cur
  | code moduleLevel expr => exact (failsHere_openCode s level moduleLevel expr).failsFrom cur
  | definition t =>
    obtain ⟨lead, word, rest, heq, -, rfl⟩ := hseen
    exact (Element.read_fails hline (isInfix_of_tagged heq)).bind fun _ => failsHere_pure _
  | directive t =>
    obtain ⟨lead, word, rest, heq, -, rfl⟩ := hseen
    exact (Element.read_fails hline (isInfix_of_tagged heq)).bind fun _ => failsHere_pure _
  | shielded t =>
    obtain ⟨lead, word, rest, heq, -, rfl⟩ := hseen
    exact (Element.read_fails hline (isInfix_of_tagged heq)).bind fun _ =>
      (failsHere_verbatimBlock s level).bind fun _ => failsHere_pure _
  | call t =>
    obtain ⟨lead, word, rest, heq, -, rfl⟩ := hseen
    exact openCall_fails line hline (isInfix_of_tagged heq)
  | jump keyword => exact (failsHere_pure _).failsFrom cur
  | markup language => exact (failsHere_openMarkup s level language).failsFrom cur
  | custom read => exact hseen.elim

end

/-! ## Moves -/

namespace Outline

variable {p : Profile} {s : Setting} {o o' : Outline} {w : Text}

/-- An outline that has a line at hand has counted it. -/
def Counted (o : Outline) : Prop :=
  o.announced = true ∨ o.line.body ≠ [] → 1 ≤ o.cursor.number

/-- A move that takes up a line has counted it. -/
theorem Counted.of_steps (hp : p.IsStandard) (h : Steps p.recognise s o w o') (ho : o.Counted) :
    o'.Counted := by
  have hle := (h.yields hp).reaches.number_le
  cases h with
  | look hfound hopen =>
    intro _
    exact Nat.le_trans (ho (.inl rfl)) hle
  | announce hannounces =>
    intro _
    refine ho (.inr ?_)
    cases hannounces <;> assumption
  | handOn hhands => exact ho
  | finish hpull hbody hnext =>
    intro hline
    rcases hline with hline | hline
    · cases hline
    · exact absurd rfl hline
  | pull hpull hbody hnext =>
    intro _
    rw [(Cursor.pulled_of_next? hnext).number]
    exact Nat.le_add_left 1 _
  | clause hbody hnext hread =>
    intro _
    exact Nat.le_trans (ho (.inr hbody)) hle

/-- Every outline that a compilation reaches has counted the line at hand. -/
theorem counted_of_moves (hp : p.IsStandard) {source : Text}
    (h : Moves p.recognise s (.ofDocument source) w o) : o.Counted := by
  refine h.invariant (fun hstep => Counted.of_steps hp hstep) fun hline => ?_
  rcases hline with hline | hline
  · cases hline
  · exact absurd rfl hline

/-- A template is made of its lines. -/
theorem count_place_ofDocument (source : Text) (c : Char) :
    (ofDocument source).place.count c = source.count c := by
  show List.count c [] + source.lines.flatten.count c = source.count c
  rw [List.count_nil, Nat.zero_add, Text.flatten_lines]

/-- A document has single lines to come, and none at hand at its start. -/
theorem oneLine_place_ofDocument (source : Text) : (ofDocument source).place.OneLine :=
  ⟨Text.oneLine_of_not_mem List.not_mem_nil, fun _ hraw => Text.oneLine_of_mem_lines hraw⟩

/-- Every line that is counted is a line of the template. -/
theorem number_le_of_reaches {source : Text} {cur : Cursor}
    (h : (ofDocument source).cursor.Reaches cur) : cur.number ≤ source.lines.length := by
  obtain ⟨lines, hpulled⟩ := h
  have hahead : source.lines = lines ++ cur.ahead := hpulled.ahead
  have hnumber : cur.number = 0 + lines.length := hpulled.number
  rw [hnumber, hahead, List.length_append]
  omega

/-- What is raised where a reading ends is raised at a line of the template. -/
theorem faultIn_of_raisedAt (hp : p.IsStandard) {source : Text} {e : Diagnostic} {cur : Cursor}
    (hm : Moves p.recognise s (.ofDocument source) w o)
    (hline : o.announced = true ∨ o.line.body ≠ []) (hreach : o.cursor.Reaches cur)
    (h : e.RaisedAt cur.number) :
    FaultIn s.embedded 1 source.lines.length (source.count '\x60') e := by
  have hcounted := counted_of_moves hp hm hline
  have hle := hreach.number_le
  exact ⟨cur.number, by omega, number_le_of_reaches ((hm.yields hp).reaches.trans hreach), .inl h⟩

/-- A move fails at a line that no rule recognises, or at a line of the template that was read. -/
theorem Fails.cases (hp : p.IsStandard) {source : Text} {e : Diagnostic} {cur : Cursor}
    (hm : Moves p.recognise s (.ofDocument source) w o) (h : Fails p.recognise s o e cur) :
    (o.announced = true ∧ p.recognise o.line.body = none ∧
        e = .unrecognised o.cursor.number o.line.body) ∨
      FaultIn s.embedded 1 source.lines.length (source.count '\x60') e := by
  have hyields := hm.yields hp
  cases h with
  | unrecognised hnone => exact .inl ⟨rfl, hnone, rfl⟩
  | headline hfound hopen =>
    right
    obtain ⟨-, hseen⟩ := Profile.headline_seen hp hfound
    have hreach := (Headline.forward_opening s _ hseen).reaches hopen
    have hline := (oneLine_place_ofDocument source).of_yields hyields
    rcases Headline.opening_fails hseen hline e cur hopen with hraised | hfault
    · exact faultIn_of_raisedAt hp hm (.inl rfl) hreach hraised
    · have hticks := hyields.count_le '\x60' (by decide)
      rw [count_place_ofDocument] at hticks
      exact hfault.mono (counted_of_moves hp hm (.inl rfl))
        (number_le_of_reaches (hyields.reaches.trans hreach)) hticks
  | clause hbody hnext hread =>
    right
    have hreach := (Clause.forward_read _ _ _).reaches hread
    exact faultIn_of_raisedAt hp hm (.inr hbody) hreach (Clause.failsHere_read _ _ _ _ _ _ hread)

end Outline

/-! ## Compilations -/

namespace Profile

variable {p : Profile} {embedded : Text → Except Diagnostic Text} {source : Text} {e : Diagnostic}

/-- The template itself comes to the line `body` with the number `n`, and no rule recognises it. -/
def Overlooks (p : Profile) (embedded : Text → Except Diagnostic Text) (source : Text) (n : Nat)
    (body : Text) : Prop :=
  ∃ written stack level cur,
    Outline.Moves p.recognise (p.setting embedded) (.ofDocument source) written
      ⟨stack, ⟨level, body⟩, true, cur⟩ ∧
    p.recognise body = none ∧ cur.number = n

/-- A compilation fails at a line of the template that no rule recognises, or where a reader or
markup fails. -/
theorem fault_cases (hp : p.IsStandard) (h : p.compileWith embedded source = .error e) :
    (∃ n body, e = .unrecognised n body ∧ p.Overlooks embedded source n body ∧ 1 ≤ n ∧
        n ≤ source.lines.length) ∨
      FaultIn embedded 1 source.lines.length (source.count '\x60') e := by
  obtain ⟨written, last, result, cur, hm, hstop, hresult⟩ :=
    p.exists_moves_of_compileWith hp embedded source
  rw [hresult] at h
  cases result with
  | ok line => cases h
  | error d =>
    cases h
    rcases (Outline.step_eq_error_iff.1 hstop).cases hp hm with ⟨ho, hnone, he⟩ | hfault
    · left
      have hlow := Outline.counted_of_moves hp hm (.inl ho)
      have hhigh := Outline.number_le_of_reaches (hm.yields hp).reaches
      obtain ⟨stack, line, announced, cursor⟩ := last
      subst ho
      exact ⟨_, _, he, ⟨written, stack, line.indent, cursor, hm, hnone, rfl⟩, hlow, hhigh⟩
    · exact .inr hfault

end Profile

end TerseMarkup
