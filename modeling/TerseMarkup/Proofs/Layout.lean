import TerseMarkup.Proofs.Trimming

/-!
# Layout

One template can be laid out in several ways: with more space in front of its lines, and with a
carriage return in front of every line feed. A `Layout` is such a way, and `Layout.line` puts a raw
line into it.

A text that is read on is the end of a line. In another layout it is the same text, or it differs
in the line end; this is `Layout.Matches`. What looks at the front of a text cuts both alike,
because it never looks for a piece of a line end (`Text.after?_append_lineEnd` and the lemmas after
it). A rest of a line that is read as a headline again starts with no line end; this is
`Layout.Heads`.
-/

namespace TerseMarkup

/-! ## Ways to lay out a template -/

namespace Text

/-- The line with `k` spaces in front of it, if it is not blank. -/
def indentLine (k : Nat) (raw : Text) : Text :=
  if raw.all isBlank then raw else copies k ' ' ++ raw

/-- The text with `k` spaces in front of every line that is not blank. -/
def indented (k : Nat) (t : Text) : Text :=
  (t.lines.map (indentLine k)).flatten

/-- The text with a carriage return in front of every line feed. -/
def carriageReturns (t : Text) : Text :=
  t.flatMap fun c => if c = '\n' then ['\r', '\n'] else [c]

/-- Whether a text starts like code behind a fence or like a tag of the template engine. -/
def startsCode (t : Text) : Bool :=
  "---".toList.isPrefixOf t || (Rule.dashWord? taggedWords t).isSome

end Text

/-- A way to lay out a template. -/
structure Layout where
  /-- How many spaces stand in front of each line that is not blank, besides its own. -/
  margin : Nat
  /-- Whether a carriage return stands in front of each line feed. -/
  carriage : Bool
  /-- What is behind a colon in a line that gets a carriage return, up to the line feed. -/
  Tail : Text → Prop

/-- A raw line in the layout. -/
def Layout.line (ℓ : Layout) (raw : Text) : Text :=
  Text.indentLine ℓ.margin (if ℓ.carriage then raw.carriageReturns else raw)

namespace Text

/-! ## Line ends -/

/-- No character of the text belongs to a line end. -/
def Inner (t : Text) : Prop :=
  ∀ c ∈ t, c ≠ '\n' ∧ c ≠ '\r'

instance decidableInner (t : Text) : Decidable t.Inner :=
  List.decidableBAll (fun c => c ≠ '\n' ∧ c ≠ '\r') t

/-- A text without line ends has neither character of one. -/
theorem Inner.not_mem {t : Text} {c : Char} (ht : t.Inner) (hc : c = '\n' ∨ c = '\r') : c ∉ t := by
  intro hmem
  obtain ⟨hfeed, hreturn⟩ := ht c hmem
  exact hc.elim hfeed hreturn

/-- A line feed, with or without a carriage return in front of it. -/
def IsLineEnd (e : Text) : Prop :=
  e = ['\n'] ∨ e = ['\r', '\n']

/-- A line feed alone is a line end. -/
theorem isLineEnd_feed : IsLineEnd ['\n'] :=
  .inl rfl

/-- A carriage return and a line feed are a line end. -/
theorem isLineEnd_return : IsLineEnd ['\r', '\n'] :=
  .inr rfl

variable {x e lead mark : Text}

/-- Line ends are blank. -/
theorem IsLineEnd.isBlank (he : e.IsLineEnd) : ∀ c ∈ e, isBlank c = true := by
  rcases he with rfl | rfl
  · exact forall_mem_of_all (by decide)
  · exact forall_mem_of_all (by decide)

/-- A line end starts with one of its two characters. -/
theorem IsLineEnd.exists_cons (he : e.IsLineEnd) :
    ∃ c u, e = c :: u ∧ (c = '\n' ∨ c = '\r') := by
  rcases he with rfl | rfl
  · exact ⟨_, _, rfl, .inl rfl⟩
  · exact ⟨_, _, rfl, .inr rfl⟩

/-- A lead without line ends lies in front of the line end. -/
theorem after?_append_lineEnd (hlead : lead.Inner) (he : e.IsLineEnd) (x : Text) :
    after? lead (x ++ e) = (after? lead x).map (· ++ e) := by
  obtain ⟨c, u, rfl, hc⟩ := he.exists_cons
  exact after?_append_cons (hlead.not_mem hc) x u

/-- A text without line ends starts a line in both layouts or in neither. -/
theorem isPrefixOf_append_lineEnd (hlead : lead.Inner) (he : e.IsLineEnd) (x : Text) :
    lead.isPrefixOf (x ++ e) = lead.isPrefixOf x := by
  obtain ⟨c, u, rfl, hc⟩ := he.exists_cons
  exact isPrefixOf_append_cons (hlead.not_mem hc) x u

/-- Quotes have no line ends in them. -/
theorem inner_of_mem_quoteMarks (h : mark ∈ quoteMarks) : mark.Inner := by
  revert mark
  decide

/-- The closing quote is looked for in front of the line end. -/
theorem closing?_append_lineEnd (hmark : mark ∈ quoteMarks) (he : e.IsLineEnd) (x : Text) :
    closing? mark (x ++ e) = (closing? mark x).map fun found => (found.1, found.2 ++ e) := by
  have hshield : closing? mark ('\\' :: e) = none ∧ closing? mark e = none := by
    simp only [quoteMarks, List.mem_cons, List.not_mem_nil, or_false] at hmark
    rcases hmark with rfl | rfl | rfl | rfl <;> rcases he with rfl | rfl <;> exact ⟨rfl, rfl⟩
  fun_induction closing? mark x with
  | case1 => exact hshield.2
  | case2 => exact hshield.1
  | case3 c t ih =>
    rw [List.cons_append, List.cons_append, closing?, if_pos rfl]
    simp only [ih, Option.map_map]
    rfl
  | case4 c t hc rest hr =>
    have hr' := after?_append_lineEnd (inner_of_mem_quoteMarks hmark) he (c :: t)
    rw [hr, List.cons_append] at hr'
    rw [List.cons_append, closing?.eq_def]
    simp only [if_neg hc, hr']
    rfl
  | case5 c t hc hr ih =>
    have hr' := after?_append_lineEnd (inner_of_mem_quoteMarks hmark) he (c :: t)
    rw [hr, List.cons_append] at hr'
    rw [List.cons_append, closing?.eq_def]
    simp only [if_neg hc, hr', ih, Option.map_none, Option.map_map]
    rfl

/-- The opening quote of a text does not depend on its line end. -/
theorem quoteMark?_append_lineEnd (he : e.IsLineEnd) (x : Text) :
    quoteMark? (x ++ e) = quoteMark? x := by
  have h : ∀ mark ∈ quoteMarks, mark.isPrefixOf (x ++ e) = mark.isPrefixOf x :=
    fun mark hmark => isPrefixOf_append_lineEnd (inner_of_mem_quoteMarks hmark) he x
  simp only [quoteMarks, List.forall_mem_cons] at h
  simp only [quoteMark?, quoteMarks, List.find?_cons, List.find?_nil, h]

/-- A string literal does not reach into the line end. -/
theorem quoted?_append_lineEnd (he : e.IsLineEnd) (x : Text) :
    quoted? (x ++ e) = (quoted? x).map fun found => (found.1, found.2 ++ e) := by
  unfold quoted?
  rw [quoteMark?_append_lineEnd he]
  split
  · rfl
  · rename_i mark hm
    have hpre : mark <+: x := by simpa using List.find?_some hm
    rw [List.drop_append_of_le_length hpre.length_le,
      closing?_append_lineEnd (List.mem_of_find?_eq_some hm) he]
    simp only [Option.map_map]
    rfl

end Text

namespace Nesting

/-- The delimiters have no character of a line end. -/
def Inner : Nesting → Prop
  | brackets => True
  | placeholder start stop => start.Inner ∧ stop.Inner

variable {n : Nesting} {e : Text}

/-- A group is opened by the same mark whatever the line end. -/
theorem opening?_append_lineEnd (hn : n.Inner) (he : e.IsLineEnd) (x : Text) :
    n.opening? (x ++ e) =
      (n.opening? x).map fun found => (found.1, found.2.1 ++ e, found.2.2) := by
  cases n with
  | brackets =>
    cases x with
    | nil => rcases he with rfl | rfl <;> rfl
    | cons c x =>
      simp only [List.cons_append, opening?]
      split <;> rfl
  | placeholder start stop =>
    simp only [opening?]
    split
    · rfl
    · rw [Text.after?_append_lineEnd hn.1 he, Option.map_map, Option.map_map]
      rfl

/-- A mark is found whatever the line end. -/
theorem sequence?_append_lineEnd {mark : Text} (hmark : mark.Inner) (he : e.IsLineEnd) (x : Text) :
    sequence? mark (x ++ e) = (sequence? mark x).map fun found => (found.1, found.2 ++ e) := by
  unfold sequence?
  split
  · rfl
  · rw [Text.after?_append_lineEnd hmark he, Option.map_map, Option.map_map]
    rfl

/-- The mark that turns the depth is the same whatever the line end. -/
theorem mark?_append_lineEnd (hn : n.Inner) (he : e.IsLineEnd) (x : Text) :
    n.mark? (x ++ e) = (n.mark? x).map fun found => (found.1, found.2.1, found.2.2 ++ e) := by
  cases n with
  | brackets =>
    cases x with
    | nil => rcases he with rfl | rfl <;> rfl
    | cons c x =>
      simp only [List.cons_append, mark?]
      split
      · rfl
      · split <;> rfl
  | placeholder start stop =>
    simp only [mark?]
    split
    · cases x with
      | nil => rcases he with rfl | rfl <;> rfl
      | cons c x =>
        simp only [List.cons_append]
        split
        · rfl
        · split <;> rfl
    · rw [sequence?_append_lineEnd hn.2 he, sequence?_append_lineEnd hn.1 he]
      cases sequence? stop x with
      | some found => rfl
      | none =>
        simp only [Option.map_none, Option.map_map]
        rfl

end Nesting

/-! ## Texts in two layouts -/

/-- A line without its line end, whose tails behind colons are known to the layout. -/
structure Layout.Plain (ℓ : Layout) (x : Text) : Prop where
  inner : x.Inner
  colon : ∀ front back : Text, x ++ ['\n'] = front ++ ':' :: back → ℓ.Tail back.trimStart

/-- The end of a plain line is plain. -/
theorem Layout.Plain.of_suffix {ℓ : Layout} {x y : Text} (hs : y <:+ x) (h : ℓ.Plain x) :
    ℓ.Plain y := by
  obtain ⟨lead, rfl⟩ := hs
  constructor
  · intro c hc
    exact h.inner c (List.mem_append_right lead hc)
  · intro front back heq
    refine h.colon (lead ++ front) back ?_
    rw [List.append_assoc, heq, List.append_assoc]

/-- The delimiters may be read in the layout: line ends matter to none of them, or do not change. -/
def Nesting.FitFor (ℓ : Layout) (n : Nesting) : Prop :=
  ℓ.carriage = true → n.Inner

namespace Layout

/-- The second text stands in the layout where the first one stood: it is the same, or the line end
has got its carriage return. -/
inductive Matches (ℓ : Layout) : Text → Text → Prop where
  | same (t : Text) : ℓ.Matches t t
  | ended {x : Text} (hcarriage : ℓ.carriage = true) (hx : ℓ.Plain x) :
      ℓ.Matches (x ++ ['\n']) (x ++ ['\r', '\n'])

namespace Matches

variable {ℓ : Layout} {t t' : Text}

/-- Without carriage returns nothing changes behind the indentation. -/
theorem eq (h : ℓ.Matches t t') (hcarriage : ℓ.carriage = false) : t' = t := by
  cases h with
  | same => rfl
  | ended htrue _ =>
    rw [htrue] at hcarriage
    cases hcarriage

/-- A text has nothing in it in both layouts or in neither. -/
theorem eq_nil_iff (h : ℓ.Matches t t') : t' = [] ↔ t = [] := by
  cases h with
  | same => rfl
  | ended => simp

/-- The same as a test. -/
theorem isEmpty_eq (h : ℓ.Matches t t') : t'.isEmpty = t.isEmpty := by
  rw [Bool.eq_iff_iff, List.isEmpty_iff, List.isEmpty_iff, h.eq_nil_iff]

/-- Two texts that match differ in blanks at their end only. -/
theorem trim_eq (h : ℓ.Matches t t') : t'.trim = t.trim := by
  cases h with
  | same => rfl
  | ended =>
    rw [Text.trim_append_blank _ Text.isLineEnd_return.isBlank,
      Text.trim_append_blank _ Text.isLineEnd_feed.isBlank]

/-- Texts still match when they are trimmed at the front. -/
theorem trimStart (h : ℓ.Matches t t') : ℓ.Matches t.trimStart t'.trimStart := by
  cases h with
  | same => exact .same _
  | @ended x hcarriage hx =>
    by_cases hblank : x.trimStart = []
    · rw [Text.trimStart_append_blank (Text.trimStart_eq_nil_iff.1 hblank),
        Text.trimStart_append_blank (Text.trimStart_eq_nil_iff.1 hblank)]
      exact .same []
    · rw [Text.trimStart_append hblank, Text.trimStart_append hblank]
      exact .ended hcarriage (hx.of_suffix (Text.trimStart_suffix x))

/-- A character that is not at the end of its line is the same in both texts. -/
theorem exists_cons {c : Char} {r : Text} (h : ℓ.Matches (c :: r) t')
    (hend : Nesting.atLineEnd (c :: r) = false) : ∃ r', t' = c :: r' ∧ ℓ.Matches r r' := by
  generalize ht : c :: r = t at h
  cases h with
  | same => exact ⟨r, ht.symm, .same r⟩
  | @ended x hcarriage hx =>
    cases x with
    | nil =>
      cases ht
      cases hend
    | cons b x =>
      cases ht
      exact ⟨_, rfl, .ended hcarriage (hx.of_suffix (List.suffix_cons _ x))⟩

/-- Two texts that match start with the same character, unless they are line ends. -/
theorem head?_eq_or (h : ℓ.Matches t t') :
    t'.head? = t.head? ∨ ℓ.carriage = true ∧ t = ['\n'] ∧ t' = ['\r', '\n'] := by
  cases h with
  | same => exact .inl rfl
  | @ended x hcarriage hx =>
    cases x with
    | nil => exact .inr ⟨hcarriage, rfl, rfl⟩
    | cons c x => exact .inl rfl

/-- Matching texts start with the same character, unless there is nothing but a line end. -/
theorem head?_eq (h : ℓ.Matches t t') (hne : t ≠ ['\n']) : t'.head? = t.head? :=
  h.head?_eq_or.resolve_right fun hends => hne hends.2.1

/-- Texts that match still do without the first character. -/
theorem tail {c : Char} {r r' : Text} (h : ℓ.Matches (c :: r) (c :: r')) : ℓ.Matches r r' := by
  generalize ht : c :: r = t at h
  generalize ht' : c :: r' = t' at h
  cases h with
  | same =>
    cases ht
    cases ht'
    exact .same r
  | @ended x hcarriage hx =>
    cases x with
    | nil =>
      cases ht
      cases ht'
    | cons b x =>
      cases ht
      cases ht'
      exact .ended hcarriage (hx.of_suffix (List.suffix_cons _ x))

/-- A group looks for a new line in both layouts or in neither. -/
theorem atLineEnd_eq (h : ℓ.Matches t t') : Nesting.atLineEnd t' = Nesting.atLineEnd t := by
  cases h with
  | same => rfl
  | @ended x hcarriage hx =>
    cases x with
    | nil => rfl
    | cons c x =>
      have hc := hx.inner c List.mem_cons_self
      simp [Nesting.atLineEnd, hc.1, hc.2]

/-- A backslash at the end of a line is one whatever the line end. -/
theorem isBreak_eq (h : ℓ.Matches t t') : isBreak t' = isBreak t := by
  cases h with
  | same => rfl
  | @ended x hcarriage hx =>
    cases x with
    | nil => rfl
    | cons c x =>
      have hfeed : isBlank '\n' = true := by decide
      have hreturn : isBlank '\r' = true := by decide
      simp [isBreak, hfeed, hreturn]

/-- Whatever cuts a text in the same way when a line end is added behind it, cuts two texts that
match in the same way. What it finds is put together by `g` from the rest of the text and what
does not depend on the line end. -/
theorem cut {α β : Type} {f : Text → Option β} {g : α → Text → β} {add : Text → β → β}
    (h : ℓ.Matches t t') (hg : ∀ b, ∃ a r, b = g a r)
    (hadd : ∀ a r e, add e (g a r) = g a (r ++ e))
    (hf : ℓ.carriage = true → ∀ x e, Text.IsLineEnd e → f (x ++ e) = (f x).map (add e))
    (hsuffix : ∀ x a r, f x = some (g a r) → r <:+ x) :
    (f t = none ∧ f t' = none) ∨
      ∃ a r r', f t = some (g a r) ∧ f t' = some (g a r') ∧ ℓ.Matches r r' := by
  cases h with
  | same t =>
    cases f t with
    | none => exact .inl ⟨rfl, rfl⟩
    | some b =>
      obtain ⟨a, r, rfl⟩ := hg b
      exact .inr ⟨a, r, r, rfl, rfl, .same r⟩
  | @ended x hcarriage hx =>
    rw [hf hcarriage x _ Text.isLineEnd_feed, hf hcarriage x _ Text.isLineEnd_return]
    cases hr : f x with
    | none => exact .inl ⟨rfl, rfl⟩
    | some b =>
      obtain ⟨a, r, rfl⟩ := hg b
      rw [Option.map_some, Option.map_some, hadd, hadd]
      exact .inr ⟨a, _, _, rfl, rfl, .ended hcarriage (hx.of_suffix (hsuffix x a r hr))⟩

/-- A start without line ends is cut off in both layouts or in neither, and matching texts
follow. -/
theorem after? (h : ℓ.Matches t t') (lead : Text) (hlead : lead.Inner) :
    (Text.after? lead t = none ∧ Text.after? lead t' = none) ∨
      ∃ r r', Text.after? lead t = some r ∧ Text.after? lead t' = some r' ∧ ℓ.Matches r r' := by
  have hcut := h.cut (f := Text.after? lead) (g := fun (_ : Unit) r => r)
    (fun r => ⟨(), r, rfl⟩) (fun _ _ _ => rfl)
    (fun _ x _ he => Text.after?_append_lineEnd hlead he x) fun _ _ _ hr => Text.suffix_of_after? hr
  exact hcut.imp_right fun ⟨_, hfound⟩ => hfound

/-- A string literal is cut off in both layouts or in neither, and it is the same. -/
theorem quoted? (h : ℓ.Matches t t') :
    (t.quoted? = none ∧ t'.quoted? = none) ∨
      ∃ q r r', t.quoted? = some (q, r) ∧ t'.quoted? = some (q, r') ∧ ℓ.Matches r r' :=
  h.cut (f := Text.quoted?) (fun (q, r) => ⟨q, r, rfl⟩) (fun _ _ _ => rfl)
    (fun _ x _ he => Text.quoted?_append_lineEnd he x) fun _ _ _ hr => Text.suffix_of_quoted? hr

/-- A mark is cut off in both layouts or in neither, and it is the same. -/
theorem mark? {n : Nesting} (h : ℓ.Matches t t') (hn : n.FitFor ℓ) :
    (n.mark? t = none ∧ n.mark? t' = none) ∨
      ∃ turn m r r', n.mark? t = some (turn, m, r) ∧ n.mark? t' = some (turn, m, r') ∧
        ℓ.Matches r r' := by
  have hcut := h.cut (f := n.mark?) (g := fun (m : Turn × Text) r => (m.1, m.2, r))
    (fun (turn, m, r) => ⟨(turn, m), r, rfl⟩) (fun _ _ _ => rfl)
    (fun hcarriage x _ he => n.mark?_append_lineEnd (hn hcarriage) he x)
    fun _ _ _ hr => Nesting.suffix_of_mark? hr
  exact hcut.imp_right fun ⟨(turn, m), hfound⟩ => ⟨turn, m, hfound⟩

/-- A group is opened in both layouts or in neither, by the same mark. -/
theorem opening? {n : Nesting} (h : ℓ.Matches t t') (hn : n.FitFor ℓ) :
    (n.opening? t = none ∧ n.opening? t' = none) ∨
      ∃ start depth r r', n.opening? t = some (start, r, depth) ∧
        n.opening? t' = some (start, r', depth) ∧ ℓ.Matches r r' := by
  have hcut := h.cut (f := n.opening?) (g := fun (m : Text × Nat) r => (m.1, r, m.2))
    (fun (start, r, depth) => ⟨(start, depth), r, rfl⟩) (fun _ _ _ => rfl)
    (fun hcarriage x _ he => n.opening?_append_lineEnd (hn hcarriage) he x)
    fun _ _ _ hr => ⟨_, (Nesting.eq_append_of_opening? hr).symm⟩
  exact hcut.imp_right fun ⟨(start, depth), hfound⟩ => ⟨start, depth, hfound⟩

end Matches

/-- The second text is a headline where the first one is, in the layout. The two match, and if they
are not the same they are the tail of a line behind a colon. -/
inductive Heads (ℓ : Layout) : Text → Text → Prop where
  | same (t : Text) : ℓ.Heads t t
  | ended {x : Text} (hcarriage : ℓ.carriage = true) (hx : ℓ.Plain x) (hne : x ≠ [])
      (htail : ℓ.Tail (x ++ ['\n'])) : ℓ.Heads (x ++ ['\n']) (x ++ ['\r', '\n'])

/-- Headlines that correspond match. -/
theorem Heads.matches {ℓ : Layout} {t t' : Text} (h : ℓ.Heads t t') : ℓ.Matches t t' := by
  cases h with
  | same => exact .same t
  | ended hcarriage hx _ _ => exact .ended hcarriage hx

/-- What follows a colon, trimmed, is a headline. -/
theorem Matches.heads_of_colon {ℓ : Layout} {r r' : Text} (h : ℓ.Matches (':' :: r) (':' :: r')) :
    ℓ.Heads r.trimStart r'.trimStart := by
  generalize ht : ':' :: r = t at h
  generalize ht' : ':' :: r' = t' at h
  cases h with
  | same =>
    cases ht
    cases ht'
    exact .same _
  | @ended x hcarriage hx =>
    cases x with
    | nil => cases ht
    | cons c y =>
      rw [List.cons_append] at ht ht'
      obtain ⟨rfl, rfl⟩ := List.cons.inj ht
      obtain ⟨-, rfl⟩ := List.cons.inj ht'
      have htail := hx.colon [] (y ++ ['\n']) rfl
      have hy := hx.of_suffix (List.suffix_cons _ y)
      by_cases hblank : Text.trimStart y = []
      · rw [Text.trimStart_append_blank (Text.trimStart_eq_nil_iff.1 hblank),
          Text.trimStart_append_blank (Text.trimStart_eq_nil_iff.1 hblank)]
        exact .same []
      · rw [Text.trimStart_append hblank] at htail
        rw [Text.trimStart_append hblank, Text.trimStart_append hblank]
        exact .ended hcarriage (hy.of_suffix (Text.trimStart_suffix y)) hblank htail

end Layout

/-! ## Lines in two layouts -/

namespace Text

/-- Carriage returns are added part by part. -/
theorem carriageReturns_append (t u : Text) :
    (t ++ u).carriageReturns = t.carriageReturns ++ u.carriageReturns :=
  List.flatMap_append

/-- A text without line feeds gets no carriage returns. -/
theorem carriageReturns_of_not_mem {t : Text} (h : '\n' ∉ t) : t.carriageReturns = t := by
  induction t with
  | nil => rfl
  | cons c t ih =>
    simp only [List.mem_cons, not_or] at h
    show (if c = '\n' then _ else _) ++ carriageReturns t = c :: t
    rw [if_neg (Ne.symm h.1), ih h.2]
    rfl

/-- Copies of a space are blank. -/
theorem blank_copies (k : Nat) : ∀ c ∈ copies k ' ', isBlank c = true := by
  intro c hc
  rw [List.eq_of_mem_replicate hc]
  decide

/-- Space in front of a line is trimmed with the rest. -/
theorem trimStart_indentLine (k : Nat) (raw : Text) :
    (raw.indentLine k).trimStart = raw.trimStart := by
  unfold indentLine
  split
  · rfl
  · exact trimStart_append_blank (blank_copies k) raw

end Text

namespace Layout

/-- A raw line that may be put into the layout. If carriage returns are added, it has no line end,
or it is plain up to a line feed at its end. -/
def Fit (ℓ : Layout) (raw : Text) : Prop :=
  ℓ.carriage = true → '\n' ∉ raw ∨ ∃ x : Text, raw = x ++ ['\n'] ∧ ℓ.Plain x

variable {ℓ : Layout} {raw : Text}

/-- A line that is put into the layout matches what it was, but for the blanks in front. -/
theorem matches_line (h : ℓ.Fit raw) : ℓ.Matches raw.trimStart (ℓ.line raw).trimStart := by
  unfold line
  rw [Text.trimStart_indentLine]
  split
  · rename_i hcarriage
    obtain hfeed | ⟨x, rfl, hx⟩ := h hcarriage
    · rw [Text.carriageReturns_of_not_mem hfeed]
      exact .same _
    · rw [Text.carriageReturns_append,
        Text.carriageReturns_of_not_mem fun hc => (hx.inner _ hc).1 rfl]
      exact (Matches.ended hcarriage hx).trimStart
  · exact .same _

end Layout

/-- A line that is not blank is moved by the margin as a whole, up to blanks at its end. -/
theorem Layout.exists_line_eq {ℓ : Layout} {raw : Text} (h : ℓ.Fit raw)
    (hblank : raw.trimStart ≠ []) :
    ∃ x e e', raw = x ++ e ∧ ℓ.line raw = Text.copies ℓ.margin ' ' ++ (x ++ e') ∧
      Text.trimStart x ≠ [] ∧ (∀ c ∈ e, isBlank c = true) ∧ ∀ c ∈ e', isBlank c = true := by
  have hline {u : Text} (hu : u.trimStart ≠ []) :
      u.indentLine ℓ.margin = Text.copies ℓ.margin ' ' ++ u := by
    rw [Ne, Text.trimStart_eq_nil_iff, ← List.all_eq_true] at hu
    rw [Text.indentLine, if_neg hu]
  cases hcarriage : ℓ.carriage with
  | false =>
    refine ⟨raw, [], [], (List.append_nil _).symm, ?_, hblank, by simp, by simp⟩
    rw [line, hcarriage, if_neg Bool.false_ne_true, hline hblank, List.append_nil]
  | true =>
    obtain hfeed | ⟨x, rfl, hx⟩ := h hcarriage
    · refine ⟨raw, [], [], (List.append_nil _).symm, ?_, hblank, by simp, by simp⟩
      rw [line, if_pos hcarriage, Text.carriageReturns_of_not_mem hfeed, hline hblank,
        List.append_nil]
    · have hne : Text.trimStart x ≠ [] := by
        intro hnil
        rw [Text.trimStart_append_blank (Text.trimStart_eq_nil_iff.1 hnil)] at hblank
        exact hblank rfl
      refine ⟨x, ['\n'], ['\r', '\n'], rfl, ?_, hne, Text.isLineEnd_feed.isBlank,
        Text.isLineEnd_return.isBlank⟩
      have hreturns : Text.carriageReturns (x ++ ['\n']) = x ++ ['\r', '\n'] := by
        rw [Text.carriageReturns_append,
          Text.carriageReturns_of_not_mem fun hc => (hx.inner _ hc).1 rfl]
        rfl
      rw [line, if_pos hcarriage, hreturns, hline]
      rw [Text.trimStart_append hne]
      simp

/-- The second line stands in the layout where the first one stood: the body is the same, and if
there is one, the indentation is deeper by the margin. -/
structure Line.LaidOut (ℓ : Layout) (line line' : Line) : Prop where
  body : line'.body = line.body
  indent : line.body ≠ [] → line'.indent = line.indent + ℓ.margin

/-- Without its terminator, a line has lost all of its line end. -/
theorem Text.dropTerminator_append_lineEnd {x e : Text} (hx : x.Inner) (he : e.IsLineEnd) :
    (x ++ e).dropTerminator = x := by
  rcases he with rfl | rfl
  · have hlast : x.getLast? ≠ some '\r' := by
      intro h
      exact (hx _ (List.mem_of_getLast? h)).2 rfl
    simp [dropTerminator, hlast]
  · simp [dropTerminator]

/-- Matching texts are the same without their terminators. -/
theorem Layout.Matches.dropTerminator_eq {ℓ : Layout} {t t' : Text} (h : ℓ.Matches t t') :
    t'.dropTerminator = t.dropTerminator := by
  cases h with
  | same => rfl
  | ended _ hx =>
    rw [Text.dropTerminator_append_lineEnd hx.inner Text.isLineEnd_feed,
      Text.dropTerminator_append_lineEnd hx.inner Text.isLineEnd_return]

/-- A raw line that is put into the layout has the same body, and its indentation is deeper by the
margin. -/
theorem Layout.laidOut_ofRaw {ℓ : Layout} {raw : Text} (h : ℓ.Fit raw) :
    (Line.ofRaw raw).LaidOut ℓ (Line.ofRaw (ℓ.line raw)) := by
  have hmatch := matches_line h
  unfold Line.ofRaw
  simp only [hmatch.isEmpty_eq]
  split
  · exact ⟨rfl, fun hne => absurd rfl hne⟩
  · rename_i hempty
    refine ⟨hmatch.dropTerminator_eq, fun _ => ?_⟩
    rw [List.isEmpty_iff] at hempty
    obtain ⟨x, e, e', rfl, hline, hne, -, -⟩ := exists_line_eq h hempty
    have hlen := Text.length_trimStart_le x
    have hspace : (Text.copies ℓ.margin ' ').length = ℓ.margin := List.length_replicate
    show (ℓ.line (x ++ e)).length - (ℓ.line (x ++ e)).trimStart.length =
      (x ++ e).length - (Text.trimStart (x ++ e)).length + ℓ.margin
    rw [hline, Text.trimStart_append_blank (Text.blank_copies _), Text.trimStart_append hne,
      Text.trimStart_append hne]
    simp only [List.length_append, hspace]
    omega

end TerseMarkup
