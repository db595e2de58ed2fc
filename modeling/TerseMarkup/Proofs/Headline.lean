import TerseMarkup.Clause
import TerseMarkup.Proofs.Length
import TerseMarkup.Proofs.Passes
import TerseMarkup.Proofs.Rule

/-!
# What reading a headline leaves

Reading a headline pulls lines, and it ends with something left over: the rest of a line that is a
headline of its own, or a line that was pulled and is not used. `Opening.LeftOver` says what that
can be, for openings of all kinds, and `Headline.opening_leftOver` that it holds of every headline
the standard rules see.

* What is left on a line is less than there was (`Opening.LeftOver.size_lt`).
* A line that is handed back is the last line pulled, and no deeper than the headline
  (`Line.HandedBack`).
-/

namespace TerseMarkup

open Place (Leads leads_of_suffix)

/-! ## Elements -/

theorem forward_renderText (s : Setting) (t : Text) : Scan.Forward (renderText s t) :=
  Scan.forward_lineNumber.bind fun _ => Scan.forward_ofExcept _

theorem forward_inlineValue (d : Delimiters) (t : Text) : Scan.Forward (inlineValue d t) :=
  (forward_expression _).bind fun _ => Scan.forward_pure _

theorem forward_inlineContent (s : Setting) (t : Text) : Scan.Forward (inlineContent s t) := by
  unfold inlineContent
  split
  · exact Scan.forward_pure _
  · split
    · exact forward_inlineValue _ _
    · split
      · exact forward_renderText _ _
      · split
        · exact (forward_renderText _ _).bind fun _ => Scan.forward_pure _
        · exact forward_renderText _ _

/-- Following continuations pulls lines and never goes back. -/
theorem forward_continued (t : Text) : Scan.Forward (continued t) :=
  fun _ => (followBreaks_leads rfl).reaches

/-- The text to go on with is that at hand, or the end of a line pulled. -/
theorem continued_leads {t rest : Text} {cur cur' : Cursor}
    (h : continued t cur = (.ok rest, cur')) : Leads ⟨t, cur⟩ ⟨rest, cur'⟩ := by
  cases h
  exact followBreaks_leads rfl

theorem forward_closeParens (parens : Bool) (t : Text) : Scan.Forward (closeParens parens t) := by
  unfold closeParens
  split
  · split
    · exact Scan.forward_pure _
    · exact Scan.forward_lineNumber.bind fun _ => Scan.forward_fail _
  · exact Scan.forward_pure _

/-- Behind the closing parenthesis stands the end of the text, and nothing is pulled for it. -/
theorem closeParens_suffix {parens : Bool} {t rest : Text} {cur cur' : Cursor}
    (h : closeParens parens t cur = (.ok rest, cur')) : rest <:+ t ∧ cur' = cur := by
  cases parens with
  | false =>
    cases h
    exact ⟨List.suffix_refl t, rfl⟩
  | true =>
    simp only [closeParens, if_true] at h
    cases hr : Text.after? [')'] t with
    | none =>
      rw [hr] at h
      cases h
    | some r =>
      rw [hr] at h
      cases h
      exact ⟨(Text.trimStart_suffix r).trans (Text.suffix_of_after? hr), rfl⟩

theorem Element.forward_finish (s : Setting) (name attributes tail : Text) :
    Scan.Forward (Element.finish s name attributes tail) := by
  unfold Element.finish
  cases Text.after? [':'] tail with
  | some rest => exact Scan.forward_pure _
  | none => exact (forward_inlineContent _ _).bind fun _ => Scan.forward_pure _

/-- What follows the colon of an element. -/
theorem Element.finish_rest {s : Setting} {name attributes tail : Text} {e : Element}
    {cur cur' : Cursor} (h : Element.finish s name attributes tail cur = (.ok e, cur')) :
    e.rest = [] ∨ cur' = cur ∧ ∃ t, tail = ':' :: t ∧ e.rest = Text.trimStart t := by
  unfold Element.finish at h
  cases ht : Text.after? [':'] tail with
  | some rest =>
    rw [ht] at h
    cases h
    exact .inr ⟨rfl, rest, Text.after?_eq_some_iff.1 ht, rfl⟩
  | none =>
    rw [ht] at h
    obtain ⟨content, cur₁, hc, h⟩ := Scan.bind_eq_ok_iff.1 h
    cases h
    exact .inl rfl

/-- The stages of the headline of an element. -/
theorem Element.read_eq_ok_iff {s : Setting} {disguise : Option Disguise} {line : Text}
    {e : Element} {cur cur' : Cursor} :
    Element.read s disguise line cur = (.ok e, cur') ↔
      ∃ idText t₁ cur₁ classes t₂ cur₂ t₃ cur₃ list t₄ cur₄ t₅ cur₅,
        idShortcut s.delimiters (elementName line).2 cur = (.ok (idText, t₁), cur₁) ∧
        classShortcuts s.delimiters t₁ cur₁ = (.ok (classes, t₂), cur₂) ∧
        continued t₂.trimStart cur₂ = (.ok t₃, cur₃) ∧
        readAttributes s.delimiters (optionalMark '(' t₃).1 line idText
          ⟨(disguise.map Disguise.leading).toList, classes⟩ (optionalMark '(' t₃).2 cur₃ =
            (.ok (list, t₄), cur₄) ∧
        closeParens (optionalMark '(' t₃).1 t₄ cur₄ = (.ok t₅, cur₅) ∧
        Element.finish s ((disguise.map Disguise.name).getD (elementName line).1)
          (list.written idText) t₅ cur₅ = (.ok e, cur') := by
  constructor
  · intro h
    obtain ⟨⟨idText, t₁⟩, cur₁, h₁, h⟩ := Scan.bind_eq_ok_iff.1 h
    obtain ⟨⟨classes, t₂⟩, cur₂, h₂, h⟩ := Scan.bind_eq_ok_iff.1 h
    obtain ⟨t₃, cur₃, h₃, h⟩ := Scan.bind_eq_ok_iff.1 h
    obtain ⟨⟨list, t₄⟩, cur₄, h₄, h⟩ := Scan.bind_eq_ok_iff.1 h
    obtain ⟨t₅, cur₅, h₅, h⟩ := Scan.bind_eq_ok_iff.1 h
    exact ⟨_, _, _, _, _, _, _, _, _, _, _, _, _, h₁, h₂, h₃, h₄, h₅, h⟩
  · rintro ⟨idText, t₁, cur₁, classes, t₂, cur₂, t₃, cur₃, list, t₄, cur₄, t₅, cur₅, h₁, h₂, h₃,
      h₄, h₅, h₆⟩
    exact Scan.bind_eq_ok_iff.2 ⟨_, _, h₁, Scan.bind_eq_ok_iff.2 ⟨_, _, h₂,
      Scan.bind_eq_ok_iff.2 ⟨_, _, h₃, Scan.bind_eq_ok_iff.2 ⟨_, _, h₄,
        Scan.bind_eq_ok_iff.2 ⟨_, _, h₅, h₆⟩⟩⟩⟩⟩

/-- Reading the headline of an element pulls lines and never goes back. -/
theorem Element.forward_read (s : Setting) (disguise : Option Disguise) (line : Text) :
    Scan.Forward (Element.read s disguise line) := by
  refine (forward_idShortcut _ _).bind fun ⟨idText, t₁⟩ => ?_
  refine Scan.Forward.bind (reaches_classShortcuts s.delimiters t₁) fun ⟨classes, t₂⟩ => ?_
  refine (forward_continued _).bind fun t₃ => ?_
  refine Scan.Forward.bind (fun cur => (readAttributes_follows s.delimiters
    (optionalMark '(' t₃).1 line idText _ ⟨(optionalMark '(' t₃).2, cur⟩).1) fun ⟨list, t₄⟩ => ?_
  exact (forward_closeParens _ _).bind fun t₅ => Element.forward_finish _ _ _ _

/-- The stages of the headline of an element lead on, up to where its colon or its content is. -/
theorem Element.leads_of_stages {d : Delimiters} {parens : Bool} {line idText t₁ t₂ t₃ t₄ t₅ : Text}
    {classes : List Text} {list list' : AttributeList} {cur cur₁ cur₂ cur₃ cur₄ cur₅ : Cursor}
    (hid : idShortcut d (elementName line).2 cur = (.ok (idText, t₁), cur₁))
    (hclasses : classShortcuts d t₁ cur₁ = (.ok (classes, t₂), cur₂))
    (hbreaks : continued t₂.trimStart cur₂ = (.ok t₃, cur₃))
    (hattributes : readAttributes d parens line idText list (optionalMark '(' t₃).2 cur₃ =
      (.ok (list', t₄), cur₄))
    (hparens : closeParens parens t₄ cur₄ = (.ok t₅, cur₅)) : Leads ⟨line, cur⟩ ⟨t₅, cur₅⟩ := by
  obtain ⟨hsuffix, rfl⟩ := closeParens_suffix hparens
  have hname := leads_of_suffix cur (elementName_suffix line)
  have hcontinued : Leads ⟨t₂, cur₂⟩ ⟨t₃, cur₃⟩ :=
    (leads_of_suffix cur₂ (Text.trimStart_suffix t₂)).trans (continued_leads hbreaks)
  have hopened := leads_of_suffix cur₃ (optionalMark_suffix '(' t₃)
  exact hname.trans <| (idShortcut_leads hid).trans <| (classShortcuts_leads hclasses).trans <|
    hcontinued.trans <| hopened.trans <| (readAttributes_leads hattributes).trans <|
    leads_of_suffix _ hsuffix

/-- What follows the colon of an element stands behind a colon to which the reading leads. -/
theorem Element.read_rest {s : Setting} {disguise : Option Disguise} {line : Text} {e : Element}
    {cur cur' : Cursor} (h : Element.read s disguise line cur = (.ok e, cur')) :
    e.rest = [] ∨ ∃ t, Leads ⟨line, cur⟩ ⟨':' :: t, cur'⟩ ∧ e.rest = Text.trimStart t := by
  obtain ⟨idText, t₁, cur₁, classes, t₂, cur₂, t₃, cur₃, list, t₄, cur₄, t₅, cur₅, hid, hclasses,
    hbreaks, hattributes, hparens, hfinish⟩ := Element.read_eq_ok_iff.1 h
  rcases Element.finish_rest hfinish with hnil | ⟨rfl, t, rfl, hrest⟩
  · exact .inl hnil
  · exact .inr ⟨t, Element.leads_of_stages hid hclasses hbreaks hattributes hparens, hrest⟩

/-- What follows the colon of an element is less than there was, if there is anything. -/
theorem Element.read_lt {s : Setting} {disguise : Option Disguise} {line : Text} {e : Element}
    {cur cur' : Cursor} (h : Element.read s disguise line cur = (.ok e, cur')) :
    e.rest = [] ∨ cur'.size + e.rest.length < cur.size + line.length := by
  rcases Element.read_rest h with hnil | ⟨t, hl, hrest⟩
  · exact .inl hnil
  · right
    have hle := hl.size_le
    have htrim := Text.length_trimStart_le t
    rw [hrest]
    simp only [List.length_cons] at hle
    omega

/-! ## Lines handed back -/

/-- The line `next` was handed back by a reading at `level` from `cur` to `cur'`: it is no deeper
than `level`, and if there is one at all, it is the last line pulled. -/
def Line.HandedBack (next : Line) (level : Nat) (cur cur' : Cursor) : Prop :=
  next.indent ≤ level ∧
    (next.body ≠ [] → ∃ lines raw, cur.Pulled (lines ++ [raw]) cur' ∧ next = .ofRaw raw)

/-- A line that is handed back by the end of a reading is handed back by all of it. -/
theorem Line.HandedBack.of_reaches {next : Line} {level : Nat} {cur cur' cur'' : Cursor}
    (hr : cur.Reaches cur') (h : next.HandedBack level cur' cur'') :
    next.HandedBack level cur cur'' := by
  refine ⟨h.1, fun hne => ?_⟩
  obtain ⟨front, hfront⟩ := hr
  obtain ⟨lines, raw, hp, heq⟩ := h.2 hne
  refine ⟨front ++ lines, raw, ?_, heq⟩
  rw [List.append_assoc]
  exact hfront.trans hp

/-- Nothing but an indentation is handed back. -/
theorem Line.handedBack_nil {indent level : Nat} (h : indent ≤ level) (cur cur' : Cursor) :
    Line.HandedBack ⟨indent, []⟩ level cur cur' :=
  ⟨h, fun hne => absurd rfl hne⟩

/-- A line that is handed back has been pulled, so it is no longer among those to come. -/
theorem Line.HandedBack.size_lt {next : Line} {level : Nat} {cur cur' : Cursor}
    (h : next.HandedBack level cur cur') (hne : next.body ≠ []) :
    cur'.size + next.body.length < cur.size := by
  obtain ⟨lines, raw, hp, rfl⟩ := h.2 hne
  have hlen := Line.length_body_ofRaw_le raw
  rw [hp.size_eq, Cursor.size_append lines [raw] 0 0 0, Cursor.size_cons raw [] 0 0]
  omega

/-- A block of raw lines ends at the end of the template, or with a line that is handed back. -/
theorem blockOver_ends (level : Nat) (ahead : List Text) (n : Nat) :
    Cursor.Reaches ⟨ahead, n⟩ (blockOver level ahead n).2.2 ∧
      (blockOver level ahead n).2.1.HandedBack level ⟨ahead, n⟩ (blockOver level ahead n).2.2 := by
  induction ahead generalizing n with
  | nil => exact ⟨.refl _, Line.handedBack_nil (Nat.zero_le level) _ _⟩
  | cons raw ahead ih =>
    have hpull : Cursor.Pulled ⟨raw :: ahead, n⟩ [raw] ⟨ahead, n + 1⟩ := ⟨rfl, rfl⟩
    by_cases hstop : (Line.ofRaw raw).body ≠ [] ∧ (Line.ofRaw raw).indent ≤ level
    · simp only [blockOver, if_pos hstop]
      exact ⟨⟨_, hpull⟩, hstop.2, fun _ => ⟨[], raw, hpull, rfl⟩⟩
    · simp only [blockOver, if_neg hstop]
      obtain ⟨hr, hb⟩ := ih (n + 1)
      exact ⟨Cursor.Reaches.trans ⟨_, hpull⟩ hr, hb.of_reaches ⟨_, hpull⟩⟩

/-- A block of raw lines is pulled line by line. -/
theorem forward_rawBlock (level : Nat) : Scan.Forward (rawBlock level) :=
  fun cur => (blockOver_ends level cur.ahead cur.number).1

/-- The line behind a block of raw lines is the one that ended it. -/
theorem rawBlock_handedBack {level : Nat} {block : List Text} {next : Line} {cur cur' : Cursor}
    (h : rawBlock level cur = (.ok (block, next), cur')) : next.HandedBack level cur cur' := by
  have hends := (blockOver_ends level cur.ahead cur.number).2
  cases h
  exact hends

theorem forward_literalBlock (s : Setting) (level : Nat) (headline : Text) (embedded : Bool) :
    Scan.Forward (literalBlock s level headline embedded) := by
  refine Scan.forward_lineNumber.bind fun n => ?_
  refine (forward_rawBlock level).bind fun ⟨block, next⟩ => ?_
  cases embedded with
  | false => exact Scan.forward_pure _
  | true => exact (Scan.forward_ofExcept _).bind fun _ => Scan.forward_pure _

/-- The line behind a literal block is the one that ended it. -/
theorem literalBlock_handedBack {s : Setting} {level : Nat} {headline written : Text}
    {embedded : Bool} {next : Line} {cur cur' : Cursor}
    (h : literalBlock s level headline embedded cur = (.ok (written, next), cur')) :
    next.HandedBack level cur cur' := by
  obtain ⟨n, cur₁, hn, h₁⟩ := Scan.bind_eq_ok_iff.1 h
  cases hn
  obtain ⟨⟨block, next'⟩, cur₂, hb, h₂⟩ := Scan.bind_eq_ok_iff.1 h₁
  cases embedded with
  | false =>
    cases h₂
    exact rawBlock_handedBack hb
  | true =>
    obtain ⟨rendered, cur₃, hr, h₃⟩ := Scan.bind_eq_ok_iff.1 h₂
    cases h₃
    obtain ⟨-, rfl⟩ := Scan.ofExcept_eq_ok_iff.1 hr
    exact rawBlock_handedBack hb

/-! ## Openings -/

/-- What an opening leaves over when the headline `line` at `level` is read from `cur` to `cur'`. -/
def Opening.LeftOver (level : Nat) (line : Text) (cur cur' : Cursor) : Opening → Prop
  | leaf _ next => next.HandedBack level cur cur'
  | block _ _ => True
  | inline _ _ rest | statement _ _ rest =>
    rest = [] ∨ cur'.size + rest.length < cur.size + line.length

/-- The line at hand after an opening at `level`. -/
def Opening.line (level : Nat) : Opening → Line
  | leaf _ next => next
  | block _ _ => ⟨level, []⟩
  | inline _ _ rest | statement _ _ rest => ⟨level, rest⟩

/-- What is left over is less than there was. -/
theorem Opening.LeftOver.size_lt {level : Nat} {line : Text} {cur cur' : Cursor}
    {opening : Opening} (h : opening.LeftOver level line cur cur') (hr : cur.Reaches cur')
    (hne : line ≠ []) : cur'.size + (opening.line level).body.length < cur.size + line.length := by
  have hsize := hr.size_le
  have hpos := List.length_pos_iff.2 hne
  have hnil : (opening.line level).body = [] →
      cur'.size + (opening.line level).body.length < cur.size + line.length := by
    intro heq
    rw [heq, List.length_nil]
    omega
  cases opening with
  | leaf written next =>
    by_cases hbody : next.body = []
    · exact hnil hbody
    · exact Nat.lt_of_lt_of_le (Line.HandedBack.size_lt h hbody) (Nat.le_add_right _ _)
  | block written close => exact hnil rfl
  | inline written close rest => exact h.elim hnil id
  | statement written keyword rest => exact h.elim hnil id

section

variable {s : Setting} {d : Delimiters} {level : Nat} {line t keyword : Text} {opening : Opening}
  {cur cur' : Cursor}

theorem forward_openElement (s : Setting) (disguise : Option Disguise) (line : Text) :
    Scan.Forward (openElement s disguise line) := by
  refine (Element.forward_read _ _ _).bind fun e => ?_
  split <;> exact Scan.forward_pure _

/-- An element leaves the rest behind its colon, or nothing. -/
theorem openElement_leftOver {disguise : Option Disguise}
    (h : openElement s disguise line cur = (.ok opening, cur')) :
    opening.LeftOver level line cur cur' := by
  obtain ⟨e, cur₁, he, h₁⟩ := Scan.bind_eq_ok_iff.1 h
  have hlt := Element.read_lt he
  have htrim := Text.length_trim_le line
  split at h₁
  · cases h₁
    trivial
  · cases h₁
    rcases hlt with hnil | hlt
    · exact .inl hnil
    · exact .inr (Nat.lt_of_lt_of_le hlt (Nat.add_le_add_left htrim _))

theorem forward_openVerbatim (s : Setting) (level : Nat) (line : Text) :
    Scan.Forward (openVerbatim s level line) :=
  (Element.forward_read _ _ _).bind fun _ =>
    (forward_literalBlock _ _ _ _).bind fun _ => Scan.forward_pure _

/-- An element that is copied as it is leaves the line that ends its block. -/
theorem openVerbatim_leftOver (h : openVerbatim s level line cur = (.ok opening, cur')) :
    opening.LeftOver level line cur cur' := by
  obtain ⟨e, cur₁, he, h₁⟩ := Scan.bind_eq_ok_iff.1 h
  obtain ⟨⟨body, next⟩, cur₂, hb, h₂⟩ := Scan.bind_eq_ok_iff.1 h₁
  cases h₂
  exact (literalBlock_handedBack hb).of_reaches ((Element.forward_read _ _ _).reaches he)

theorem forward_openValue (s : Setting) (level : Nat) (unescaped spaced : Bool) (expr : Text) :
    Scan.Forward (openValue s level unescaped spaced expr) :=
  (forward_rawBlock _).bind fun _ => Scan.forward_pure _

/-- A value leaves the line that ends it. -/
theorem openValue_leftOver {unescaped spaced : Bool} {expr : Text}
    (h : openValue s level unescaped spaced expr cur = (.ok opening, cur')) :
    opening.LeftOver level line cur cur' := by
  obtain ⟨⟨block, next⟩, cur₁, hb, h₁⟩ := Scan.bind_eq_ok_iff.1 h
  cases h₁
  exact rawBlock_handedBack hb

theorem forward_openMarkup (s : Setting) (level : Nat) (language : Text) :
    Scan.Forward (openMarkup s level language) := by
  unfold openMarkup
  split
  · exact Scan.forward_lineNumber.bind fun _ => Scan.forward_fail _
  · exact (forward_literalBlock _ _ _ _).bind fun _ => Scan.forward_pure _

/-- A block in another markup language leaves the line that ends it. -/
theorem openMarkup_leftOver {language : Text}
    (h : openMarkup s level language cur = (.ok opening, cur')) :
    opening.LeftOver level line cur cur' := by
  unfold openMarkup at h
  cases ht : s.transpiler? language with
  | none =>
    rw [ht] at h
    cases h
  | some transpile =>
    rw [ht] at h
    obtain ⟨⟨body, next⟩, cur₁, hb, h₁⟩ := Scan.bind_eq_ok_iff.1 h
    cases h₁
    exact literalBlock_handedBack hb

theorem forward_openStatement (d : Delimiters) (keyword t : Text) :
    Scan.Forward (openStatement d keyword t) := by
  unfold openStatement
  split
  · exact Scan.forward_pure _
  · exact (forward_splitStatement _ _).bind fun _ => Scan.forward_pure _

/-- A statement leaves the rest of the line behind its colon, which is less than the line. -/
theorem openStatement_leftOver (h : openStatement d keyword t cur = (.ok opening, cur')) :
    opening.LeftOver level t.trim cur cur' := by
  unfold openStatement at h
  split at h
  · cases h
    exact .inl rfl
  · obtain ⟨⟨expr, rest⟩, cur₁, hs, h₁⟩ := Scan.bind_eq_ok_iff.1 h
    cases h₁
    exact splitStatement_lt hs

/-- What is left over after the end of a reading is left over after all of it. -/
theorem Opening.LeftOver.mono {u : Text} {cur₁ : Cursor}
    (h : opening.LeftOver level t cur₁ cur') (hr : cur.Reaches cur₁)
    (hle : cur₁.size + t.length ≤ cur.size + u.length) : opening.LeftOver level u cur cur' := by
  cases opening with
  | leaf written next => exact Line.HandedBack.of_reaches hr h
  | block written close => trivial
  | inline written close rest => exact h.imp_right fun hlt => Nat.lt_of_lt_of_le hlt hle
  | statement written keyword rest => exact h.imp_right fun hlt => Nat.lt_of_lt_of_le hlt hle

theorem forward_openNegated (d : Delimiters) (keyword t : Text) :
    Scan.Forward (openNegated d keyword t) :=
  (forward_expression t).bind fun _ => forward_openStatement _ _ _

/-- A negated condition is read a second time, with seven characters around it of which a blank is
trimmed. -/
theorem openNegated_leftOver (h : openNegated d keyword t cur = (.ok opening, cur'))
    (hline : t.length + 6 ≤ line.length) : opening.LeftOver level line cur cur' := by
  obtain ⟨e, cur₁, he, h₁⟩ := Scan.bind_eq_ok_iff.1 h
  have hexpr := expression_le he
  have htrim := Text.length_trim_le t
  refine (openStatement_leftOver h₁).mono ((forward_expression t).reaches he) ?_
  have hnot : (Text.trim (" not (".toList ++ e ++ [')'])).length ≤ e.length + 6 := by
    refine Nat.le_trans (Text.length_trimEnd_le _) ?_
    simp [Text.trimStart, isBlank, blankRanges]
  omega

/-- Code is pulled line by line. -/
theorem forward_openCode (s : Setting) (level : Nat) (moduleLevel : Bool) (expr : Option Text) :
    Scan.Forward (openCode s level moduleLevel expr) := by
  refine (forward_literalBlock _ _ _ _).bind fun ⟨body, next⟩ => ?_
  simp only
  split <;> exact Scan.forward_pure _

/-- Code leaves the line that ends it. -/
theorem openCode_leftOver {moduleLevel : Bool} {expr : Option Text}
    (h : openCode s level moduleLevel expr cur = (.ok opening, cur')) :
    opening.LeftOver level line cur cur' := by
  obtain ⟨⟨body, next⟩, cur₁, hb, h₁⟩ := Scan.bind_eq_ok_iff.1 h
  simp only at h₁
  split at h₁ <;> cases h₁ <;> exact literalBlock_handedBack hb

theorem forward_openFencedCode (s : Setting) (level : Nat) (moduleLevel : Bool)
    (expr : Option Text) : Scan.Forward (openFencedCode s level moduleLevel expr) := by
  cases expr with
  | none => exact forward_openCode _ _ _ _
  | some t => exact Scan.Forward.bind (reaches_token? _ _ _ _) fun _ => forward_openCode _ _ _ _

/-- Code behind a fence leaves the line that ends it. -/
theorem openFencedCode_leftOver {moduleLevel : Bool} {expr : Option Text}
    (h : openFencedCode s level moduleLevel expr cur = (.ok opening, cur')) :
    opening.LeftOver level line cur cur' := by
  cases expr with
  | none => exact openCode_leftOver h
  | some t =>
    obtain ⟨found, cur₁, ht, h₁⟩ := Scan.bind_eq_ok_iff.1 h
    have hr := Scan.Forward.reaches (reaches_token? _ _ _ _) ht
    have hcode : opening.LeftOver level line cur₁ cur' := openCode_leftOver h₁
    exact hcode.mono hr (Nat.add_le_add_right hr.size_le _)

theorem forward_openDefinition (s : Setting) (line : Text) :
    Scan.Forward (openDefinition s line) :=
  (Element.forward_read _ _ _).bind fun _ => Scan.forward_pure _

/-- A named piece of template leaves nothing of its headline. -/
theorem openDefinition_leftOver (h : openDefinition s t cur = (.ok opening, cur')) :
    opening.LeftOver level line cur cur' := by
  obtain ⟨e, cur₁, he, h₁⟩ := Scan.bind_eq_ok_iff.1 h
  cases h₁
  trivial

theorem forward_openDirective (s : Setting) (level : Nat) (line : Text) :
    Scan.Forward (openDirective s level line) :=
  (Element.forward_read _ _ _).bind fun _ => Scan.forward_pure _

/-- A tag without content leaves nothing of its headline. -/
theorem openDirective_leftOver (h : openDirective s level t cur = (.ok opening, cur')) :
    opening.LeftOver level line cur cur' := by
  obtain ⟨e, cur₁, he, h₁⟩ := Scan.bind_eq_ok_iff.1 h
  cases h₁
  exact Line.handedBack_nil (Nat.le_refl level) _ _

theorem forward_openShielded (s : Setting) (level : Nat) (line : Text) :
    Scan.Forward (openShielded s level line) :=
  (Element.forward_read _ _ _).bind fun _ =>
    (forward_literalBlock _ _ _ _).bind fun _ => Scan.forward_pure _

/-- Content that is kept from the template engine leaves the line that ends it. -/
theorem openShielded_leftOver (h : openShielded s level t cur = (.ok opening, cur')) :
    opening.LeftOver level line cur cur' := by
  obtain ⟨e, cur₁, he, h₁⟩ := Scan.bind_eq_ok_iff.1 h
  obtain ⟨⟨body, next⟩, cur₂, hb, h₂⟩ := Scan.bind_eq_ok_iff.1 h₁
  cases h₂
  exact (literalBlock_handedBack hb).of_reaches ((Element.forward_read _ _ _).reaches he)

theorem forward_openCall (s : Setting) (headline line : Text) :
    Scan.Forward (openCall s headline line) := by
  refine (Element.forward_read _ _ _).bind fun e => ?_
  simp only
  split
  · exact Scan.forward_lineNumber.bind fun _ => Scan.forward_fail _
  · exact Scan.forward_pure _

/-- A call leaves nothing of its headline. -/
theorem openCall_leftOver {headline : Text}
    (h : openCall s headline t cur = (.ok opening, cur')) :
    opening.LeftOver level line cur cur' := by
  obtain ⟨e, cur₁, he, h₁⟩ := Scan.bind_eq_ok_iff.1 h
  split at h₁
  · cases h₁
  · cases h₁
    trivial

end

/-! ## All headlines -/

/-- Every headline that the standard rules see is read forward. -/
theorem Headline.forward_opening (s : Setting) (level : Nat) {line : Text} {headline : Headline}
    (hseen : headline.SeenIn line) : Scan.Forward (headline.opening s level line) := by
  cases headline with
  | verbatimElement => exact forward_openVerbatim _ _ _
  | doctype name => exact Scan.forward_pure _
  | scriptTemplate => exact forward_openElement _ _ _
  | element => exact forward_openElement _ _ _
  | literal text => exact (forward_literalBlock _ _ _ _).bind fun _ => Scan.forward_pure _
  | html => exact Scan.forward_pure _
  | value unescaped spaced expr => exact forward_openValue _ _ _ _ _
  | comment => exact (forward_rawBlock _).bind fun _ => Scan.forward_pure _
  | statement keyword expr => exact forward_openStatement _ _ _
  | negated keyword expr => exact forward_openNegated _ _ _
  | fencedCode moduleLevel expr => exact forward_openFencedCode _ _ _ _
  | code moduleLevel expr => exact forward_openCode _ _ _ _
  | definition t => exact forward_openDefinition _ _
  | directive t => exact forward_openDirective _ _ _
  | shielded t => exact forward_openShielded _ _ _
  | call t => exact forward_openCall _ _ _
  | jump keyword => exact Scan.forward_pure _
  | markup language => exact forward_openMarkup _ _ _
  | custom read => exact hseen.elim

/-- A negating word has five letters at least. -/
theorem length_negatedWord {word : Text} (h : word ∈ negatedWords.map String.toList) :
    5 ≤ word.length := by
  simp only [negatedWords, List.map_cons, List.map_nil, List.mem_cons, List.not_mem_nil,
    or_false] at h
  rcases h with rfl | rfl <;> decide

/-- The first line of a text is no longer than the text. -/
theorem Text.length_firstLine_le (t : Text) : t.firstLine.length ≤ t.length :=
  (List.takeWhile_sublist _).length_le

/-- Reading a headline that lies in its line leaves over only what `Opening.LeftOver` says. -/
theorem Headline.opening_leftOver {s : Setting} {level : Nat} {line : Text} {headline : Headline}
    {opening : Opening} {cur cur' : Cursor} (hseen : headline.SeenIn line)
    (h : headline.opening s level line cur = (.ok opening, cur')) :
    opening.LeftOver level line cur cur' := by
  cases headline with
  | verbatimElement => exact openVerbatim_leftOver h
  | doctype name =>
    cases h
    exact Line.handedBack_nil (Nat.le_refl level) _ _
  | scriptTemplate => exact openElement_leftOver h
  | element => exact openElement_leftOver h
  | literal text =>
    obtain ⟨⟨written, next⟩, cur₁, hb, h₁⟩ := Scan.bind_eq_ok_iff.1 h
    cases h₁
    exact literalBlock_handedBack hb
  | html =>
    cases h
    trivial
  | value unescaped spaced expr => exact openValue_leftOver h
  | comment =>
    obtain ⟨⟨block, next⟩, cur₁, hb, h₁⟩ := Scan.bind_eq_ok_iff.1 h
    cases h₁
    exact rawBlock_handedBack hb
  | statement keyword expr =>
    obtain ⟨lead, rest, hd, rfl⟩ := hseen
    obtain ⟨rfl, -, -⟩ := Rule.eq_append_of_dashWord? hd
    have htrim := Text.length_trim_le rest.firstLine
    have hfirst := Text.length_firstLine_le rest
    refine (openStatement_leftOver h).mono (.refl cur) ?_
    rw [List.length_append, List.length_append]
    omega
  | negated keyword expr =>
    obtain ⟨-, lead, word, rest, hd, rfl⟩ := hseen
    obtain ⟨rfl, hlead, hword⟩ := Rule.eq_append_of_dashWord? hd
    have hfirst := Text.length_firstLine_le rest
    have hlead := List.length_pos_iff.2 hlead
    have hword := length_negatedWord hword
    refine openNegated_leftOver h ?_
    rw [List.length_append, List.length_append]
    omega
  | fencedCode moduleLevel expr => exact openFencedCode_leftOver h
  | code moduleLevel expr => exact openCode_leftOver h
  | definition t => exact openDefinition_leftOver h
  | directive t => exact openDirective_leftOver h
  | shielded t => exact openShielded_leftOver h
  | call t => exact openCall_leftOver h
  | jump keyword =>
    cases h
    exact Line.handedBack_nil (Nat.le_refl level) _ _
  | markup language => exact openMarkup_leftOver h
  | custom read => exact hseen.elim

/-! ## Clauses -/

/-- Reading a clause pulls lines and never goes back. -/
theorem Clause.forward_read (d : Delimiters) (clause : Clause) (t : Text) :
    Scan.Forward (clause.read d t) := by
  cases clause
  case elif | except => exact (forward_splitStatement _ _).bind fun _ => Scan.forward_pure _
  case otherwise | lastly => exact (forward_restAfterColon _ _).bind fun _ => Scan.forward_pure _

/-- What follows the colon of a clause is less than the line of the clause. -/
theorem Clause.read_lt {d : Delimiters} {clause : Clause} {t written rest : Text}
    {cur cur' : Cursor} (h : clause.read d t cur = (.ok (written, rest), cur')) :
    rest = [] ∨ cur'.size + rest.length < cur.size + t.length := by
  have htrim := Text.length_trim_le t
  cases clause
  case elif | except =>
    obtain ⟨⟨expr, rest'⟩, cur₁, hs, h₁⟩ := Scan.bind_eq_ok_iff.1 h
    cases h₁
    exact (splitStatement_lt hs).imp_right fun hlt =>
      Nat.lt_of_lt_of_le hlt (Nat.add_le_add_left htrim _)
  case otherwise | lastly =>
    obtain ⟨rest', cur₁, hs, h₁⟩ := Scan.bind_eq_ok_iff.1 h
    cases h₁
    exact restAfterColon_lt hs

/-- A clause stands on a line that is longer than what it goes on with. -/
theorem Clause.length_lt_of_next? {keyword : Text} {taken : List Clause} {line t : Text}
    {clause : Clause} (h : Clause.next? keyword taken line = some (clause, t)) :
    t.length < line.length := by
  unfold Clause.next? at h
  split at h
  · cases h
  · obtain ⟨clause', -, hf⟩ := List.exists_of_findSome?_eq_some h
    obtain ⟨⟨lead, word, rest⟩, hd, hp⟩ := Option.map_eq_some_iff.1 hf
    cases hp
    obtain ⟨rfl, hlead, -⟩ := Rule.eq_append_of_dashWord? hd
    have hfirst := Text.length_firstLine_le rest
    have hlead := List.length_pos_iff.2 hlead
    rw [List.length_append, List.length_append]
    omega

end TerseMarkup
