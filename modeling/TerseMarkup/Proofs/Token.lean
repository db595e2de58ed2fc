import TerseMarkup.Proofs.Decline

/-!
# Where tokens end

A token is a sequence of whole atoms. What is an atom is tried in a fixed order: a placeholder, a
string literal that closes on its line, a bracket group, and otherwise a character (`IsAtom`). Only
groups go on over lines. Atoms are passed one after the other (`PassesAtoms`) up to the first place
where a terminator begins, or to the end of the text; a terminator inside of an atom does not count.

* `atom_eq_ok_iff` and `atom_eq_error_iff`: the atom that is read, and the group that is not closed.
* `PassesAtoms.flatten_append`: no character is lost but the line ends and the indentation of the
  lines that groups go on over.
* `token?_ends`: what reading a token comes to.
-/

namespace TerseMarkup

/-! ## Opening sequences -/

namespace Nesting

variable {n : Nesting} {t g rest : Text} {pulled ahead : List Text} {cur cur' : Cursor}

/-- A group opens at the front of the text. -/
def Opens (n : Nesting) (t : Text) : Prop :=
  ∃ start depth, n.OpensWith start depth ∧ start <+: t

/-- Where no group is found, none opens. -/
theorem not_opens_of_group? (h : n.group? t cur = (.ok none, cur')) : ¬ n.Opens t := by
  rintro ⟨start, depth, hopen, hstart⟩
  exact (group?_eq_none_iff.1 h).2 start depth hopen hstart

/-- Where none opens, no group is found, and nothing is pulled. -/
theorem group?_of_not_opens (h : ¬ n.Opens t) (cur : Cursor) :
    n.group? t cur = (.ok none, cur) := by
  refine group?_eq_none_iff.2 ⟨rfl, ?_⟩
  intro start depth hopen hstart
  exact h ⟨start, depth, hopen, hstart⟩

/-- No group opens at the end of a line. -/
theorem not_opens_nil (n : Nesting) : ¬ n.Opens [] := by
  rintro ⟨start, depth, hopen, hstart⟩
  exact hopen.ne_nil (List.prefix_nil.1 hstart)

/-- A group opens where it stands. -/
theorem IsGroup.opens (h : n.IsGroup t pulled g rest) : n.Opens t := by
  obtain ⟨start, depth, after, ps, hopen, rfl, -⟩ := h
  exact ⟨start, depth, hopen, List.prefix_append start after⟩

/-- So does one that is not closed. -/
theorem Unclosed.opens (h : n.Unclosed t ahead) : n.Opens t := by
  obtain ⟨start, depth, after, hopen, rfl, -⟩ := h
  exact ⟨start, depth, hopen, List.prefix_append start after⟩

/-- No group opens at the end of a line. -/
theorem not_opens_feed (hn : n.Inner) : ¬ n.Opens ['\n'] := by
  rintro ⟨start, depth, hopen, hstart⟩
  cases hs : start with
  | nil => exact hopen.ne_nil hs
  | cons c rest =>
    have hinner := hopen.inner hn
    rw [hs] at hstart hinner
    obtain ⟨rfl, -⟩ := List.cons_prefix_cons.1 hstart
    exact (hinner '\n' List.mem_cons_self).1 rfl

end Nesting

/-! ## String literals -/

namespace Text

variable {t mark body q rest : Text}

/-- The quote at the front of a text, which is the longest one that fits. -/
structure OpensQuote (t mark : Text) : Prop where
  mem : mark ∈ quoteMarks
  isPrefix : mark <+: t
  longest : ∀ other ∈ quoteMarks, other <+: t → other.length ≤ mark.length

/-- Behind its opening quote, a literal has `body` up to its closing quote and with it, and `rest`
follows. A backslash shields the character behind it. -/
inductive Closes (mark : Text) : Text → Text → Text → Prop
  | quote (rest : Text) : Closes mark (mark ++ rest) mark rest
  | shield {t body rest : Text} (c : Char) (h : Closes mark t body rest) :
      Closes mark ('\\' :: c :: t) ('\\' :: c :: body) rest
  | char {c : Char} {t body rest : Text} (hc : c ≠ '\\') (hmark : ¬ mark <+: c :: t)
      (h : Closes mark t body rest) : Closes mark (c :: t) (c :: body) rest

/-- `q` is a closed string literal at the front of the text. -/
def IsLiteral (t q rest : Text) : Prop :=
  ∃ mark after body, t.OpensQuote mark ∧ t = mark ++ after ∧ Closes mark after body rest ∧
    q = mark ++ body

/-- A literal has one opening quote. -/
theorem OpensQuote.eq_of_opensQuote {mark' : Text} (h : OpensQuote t mark)
    (h' : OpensQuote t mark') : mark = mark' := by
  have hlength := Nat.le_antisymm (h'.longest mark h.mem h.isPrefix)
    (h.longest mark' h'.mem h'.isPrefix)
  have hprefix := List.prefix_of_prefix_length_le h.isPrefix h'.isPrefix (Nat.le_of_eq hlength)
  exact hprefix.eq_of_length hlength

/-- The quote that is looked up opens the literal. -/
theorem opensQuote_of_quoteMark? (h : quoteMark? t = some mark) : OpensQuote t mark := by
  have hfits := List.find?_some h
  have hprefix : mark <+: t := List.isPrefixOf_iff_prefix.1 hfits
  refine ⟨List.mem_of_find?_eq_some h, hprefix, ?_⟩
  intro other hother hfits
  obtain ⟨-, before, behind, hsplit, hbefore⟩ := List.find?_eq_some_iff_append.1 h
  have hsorted : quoteMarks.Pairwise fun a b => b.length ≤ a.length := by decide
  rw [hsplit] at hother hsorted
  rcases List.mem_append.1 hother with hmem | hmem
  · have hmisfit := hbefore other hmem
    simp [List.isPrefixOf_iff_prefix.2 hfits] at hmisfit
  · rcases List.mem_cons.1 hmem with rfl | hmem
    · exact Nat.le_refl _
    · exact List.rel_of_pairwise_cons (List.pairwise_append.1 hsorted).2.1 hmem

/-- The long quotes are tried first. -/
theorem quoteMark?_eq_some_iff : quoteMark? t = some mark ↔ OpensQuote t mark := by
  refine ⟨opensQuote_of_quoteMark?, ?_⟩
  intro h
  cases hfound : quoteMark? t with
  | none =>
    have hmisfit := List.find?_eq_none.1 hfound mark h.mem
    exact absurd (List.isPrefixOf_iff_prefix.2 h.isPrefix) hmisfit
  | some mark' => rw [(opensQuote_of_quoteMark? hfound).eq_of_opensQuote h]

/-- A quote is not empty, and does not start with a backslash. -/
theorem exists_cons_of_mem_quoteMarks (h : mark ∈ quoteMarks) :
    ∃ c m, mark = c :: m ∧ c ≠ '\\' := by
  have hall : ∀ m ∈ quoteMarks, m ≠ [] ∧ m.head? ≠ some '\\' := by decide
  obtain ⟨hne, hhead⟩ := hall mark h
  cases mark with
  | nil => exact absurd rfl hne
  | cons c m => exact ⟨c, m, rfl, fun hc => hhead (congrArg some hc)⟩

/-- The closing quote is looked for as `Closes` says. -/
theorem closing?_eq_some_iff (hmark : mark ∈ quoteMarks) :
    closing? mark t = some (body, rest) ↔ Closes mark t body rest := by
  constructor
  · intro h
    fun_induction closing? mark t generalizing body rest with
    | case1 => cases h
    | case2 => cases h
    | case3 e t ih =>
      obtain ⟨⟨body', rest'⟩, hclosing, hpair⟩ := Option.map_eq_some_iff.1 h
      cases hpair
      exact .shield e (ih hclosing)
    | case4 c t hc rest' hafter =>
      cases h
      rw [after?_eq_some_iff.1 hafter]
      exact .quote rest'
    | case5 c t hc hafter ih =>
      obtain ⟨⟨body', rest'⟩, hclosing, hpair⟩ := Option.map_eq_some_iff.1 h
      cases hpair
      refine .char hc ?_ (ih hclosing)
      rintro ⟨u, hu⟩
      rw [after?_eq_some_iff.2 hu.symm] at hafter
      cases hafter
  · intro h
    induction h with
    | quote rest =>
      obtain ⟨c, m, rfl, hc⟩ := exists_cons_of_mem_quoteMarks hmark
      have hafter : after? (c :: m) (c :: (m ++ rest)) = some rest := after?_eq_some_iff.2 rfl
      rw [List.cons_append]
      unfold closing?
      simp only [if_neg hc, hafter]
    | shield c h ih => simp [closing?, ih]
    | @char c t body rest hc hmisfit h ih =>
      have hafter : after? mark (c :: t) = none := by
        cases hafter : after? mark (c :: t) with
        | none => rfl
        | some u => exact absurd ⟨u, (after?_eq_some_iff.1 hafter).symm⟩ hmisfit
      unfold closing?
      simp [if_neg hc, hafter, ih]

/-- What is cut off is the closed literal there is. -/
theorem quoted?_eq_some_iff : quoted? t = some (q, rest) ↔ IsLiteral t q rest := by
  constructor
  · intro h
    unfold quoted? at h
    split at h
    · cases h
    · rename_i mark hopen
      obtain ⟨⟨body, rest'⟩, hclosing, hpair⟩ := Option.map_eq_some_iff.1 h
      cases hpair
      have hmark := opensQuote_of_quoteMark? hopen
      obtain ⟨after, rfl⟩ := hmark.isPrefix
      rw [List.drop_left] at hclosing
      exact ⟨mark, after, body, hmark, rfl, (closing?_eq_some_iff hmark.mem).1 hclosing, rfl⟩
  · rintro ⟨mark, after, body, hmark, rfl, hcloses, rfl⟩
    have hclosing := (closing?_eq_some_iff hmark.mem).2 hcloses
    simp [quoted?, quoteMark?_eq_some_iff.2 hmark, hclosing]

/-- No literal is found exactly where there is none. -/
theorem quoted?_eq_none_iff : quoted? t = none ↔ ∀ q rest, ¬ IsLiteral t q rest := by
  simp only [← quoted?_eq_some_iff, Option.eq_none_iff_forall_ne_some, ne_eq, Prod.forall]

end Text

open Nesting (spliced)

/-! ## Atoms -/

/-- No group of the given kind, if there is one, opens at the front of the text. -/
def NoneOpens (n : Option Nesting) (t : Text) : Prop :=
  ∀ m, n = some m → ¬ m.Opens t

/-- `a` is the atom at the front of a text, where a placeholder is a group of the kind `n`. It goes
on over the lines `pulled` and leaves `rest` of the last one. -/
inductive IsAtom (n : Option Nesting) : Text → List Text → Text → Text → Prop
  | placeholder {m : Nesting} {t a rest : Text} {pulled : List Text} (hm : n = some m)
      (h : m.IsGroup t pulled a rest) : IsAtom n t pulled a rest
  | literal {t a rest : Text} (hn : NoneOpens n t) (h : t.IsLiteral a rest) : IsAtom n t [] a rest
  | group {t a rest : Text} {pulled : List Text} (hn : NoneOpens n t)
      (hq : ∀ q after, ¬ t.IsLiteral q after) (h : Nesting.brackets.IsGroup t pulled a rest) :
      IsAtom n t pulled a rest
  | char {c : Char} {t : Text} (hn : NoneOpens n (c :: t))
      (hq : ∀ q after, ¬ Text.IsLiteral (c :: t) q after)
      (hb : ¬ Nesting.brackets.Opens (c :: t)) : IsAtom n (c :: t) [] [c] t

/-- A group opens at the front of a text and would be its first atom, but it is not closed in the
lines there are. -/
inductive UnclosedAtom (n : Option Nesting) (t : Text) (ahead : List Text) : Prop
  | placeholder {m : Nesting} (hm : n = some m) (h : m.Unclosed t ahead) : UnclosedAtom n t ahead
  | group (hn : NoneOpens n t) (hq : ∀ q after, ¬ t.IsLiteral q after)
      (h : Nesting.brackets.Unclosed t ahead) : UnclosedAtom n t ahead

section

variable {n : Option Nesting} {c : Char} {t a rest : Text} {pulled ahead : List Text}
  {cur cur' : Cursor} {e : Diagnostic}

/-- Where no group of a kind is found, none opens. -/
theorem noneOpens_of_groupOf? (h : groupOf? n t cur = (.ok none, cur')) : NoneOpens n t := by
  rintro m rfl
  exact Nesting.not_opens_of_group? h

/-- Where none of a kind opens, none is found, and nothing is pulled. -/
theorem groupOf?_of_noneOpens (h : NoneOpens n t) (cur : Cursor) :
    groupOf? n t cur = (.ok none, cur) := by
  cases n with
  | none => rfl
  | some m => exact Nesting.group?_of_not_opens (h m rfl) cur

/-- An atom is read as what it is. -/
theorem atom_eq_ok_iff : atom n c t cur = (.ok (a, rest), cur') ↔
    ∃ pulled, cur.Pulled pulled cur' ∧ IsAtom n (c :: t) pulled a rest := by
  constructor
  · intro h
    rcases atom_cases h with hg | ⟨hnone, ⟨hq, rfl⟩ | ⟨hq, hg | ⟨hb, rfl, rfl, rfl⟩⟩⟩
    · cases n with
      | none => cases hg
      | some m =>
        obtain ⟨pulled, hpulled, hgroup⟩ := Nesting.group?_eq_some_iff.1 hg
        exact ⟨pulled, hpulled, .placeholder rfl hgroup⟩
    · exact ⟨[], .refl _, .literal (noneOpens_of_groupOf? hnone) (Text.quoted?_eq_some_iff.1 hq)⟩
    · obtain ⟨pulled, hpulled, hgroup⟩ := Nesting.group?_eq_some_iff.1 hg
      exact ⟨pulled, hpulled,
        .group (noneOpens_of_groupOf? hnone) (Text.quoted?_eq_none_iff.1 hq) hgroup⟩
    · exact ⟨[], .refl _, .char (noneOpens_of_groupOf? hnone) (Text.quoted?_eq_none_iff.1 hq)
        (Nesting.not_opens_of_group? hb)⟩
  · rintro ⟨pulled, hpulled, hatom⟩
    cases hatom with
    | @placeholder m _ _ _ _ hm hgroup =>
      have hg : groupOf? n (c :: t) cur = (.ok (some (a, rest)), cur') := by
        rw [hm]
        exact Nesting.group?_of_isGroup hpulled hgroup
      simp only [atom, hg]
    | literal hn hq =>
      obtain rfl := hpulled.eq_of_nil
      simp only [atom, groupOf?_of_noneOpens hn, Text.quoted?_eq_some_iff.2 hq]
    | group hn hq hgroup =>
      simp only [atom, groupOf?_of_noneOpens hn, Text.quoted?_eq_none_iff.2 hq,
        Nesting.group?_of_isGroup hpulled hgroup]
    | char hn hq hb =>
      obtain rfl := hpulled.eq_of_nil
      simp only [atom, groupOf?_of_noneOpens hn, Text.quoted?_eq_none_iff.2 hq,
        Nesting.group?_of_not_opens hb]

/-- An atom is a fault exactly if it is a group that is not closed. Then all lines have been
pulled. -/
theorem atom_eq_error_iff (hn : ∀ m, n = some m → m.Inner) (hline : Place.OneLine ⟨c :: t, cur⟩) :
    atom n c t cur = (.error e, cur') ↔
      UnclosedAtom n (c :: t) cur.ahead ∧ cur' = ⟨[], cur.number + cur.ahead.length⟩ ∧
        e = .unterminated cur'.number
          (((c :: t) :: cur.ahead.map Text.trimStart).flatMap Text.dropTerminator) := by
  constructor
  · intro h
    unfold atom at h
    split at h
    · rename_i hg
      cases h
      cases n with
      | none => cases hg
      | some m =>
        obtain ⟨hunclosed, hend⟩ :=
          (Nesting.group?_eq_error_iff (hn m rfl) hline.text hline.ahead).1 hg
        exact ⟨.placeholder rfl hunclosed, hend⟩
    · cases h
    · rename_i cur₁ hnone
      obtain rfl := eq_of_groupOf?_eq_none hnone
      split at h
      · cases h
      · rename_i hq
        split at h
        · rename_i hg
          cases h
          obtain ⟨hunclosed, hend⟩ :=
            (Nesting.group?_eq_error_iff Nesting.inner_brackets hline.text hline.ahead).1 hg
          exact ⟨.group (noneOpens_of_groupOf? hnone) (Text.quoted?_eq_none_iff.1 hq) hunclosed,
            hend⟩
        · cases h
        · cases h
  · rintro ⟨hunclosed, hend⟩
    cases hunclosed with
    | @placeholder m hm hunclosed =>
      have hg : groupOf? n (c :: t) cur = (.error e, cur') := by
        rw [hm]
        exact (Nesting.group?_eq_error_iff (hn m hm) hline.text hline.ahead).2 ⟨hunclosed, hend⟩
      simp only [atom, hg]
    | group hnone hq hunclosed =>
      have hg := (Nesting.group?_eq_error_iff Nesting.inner_brackets hline.text hline.ahead).2
        ⟨hunclosed, hend⟩
      simp only [atom, groupOf?_of_noneOpens hnone, Text.quoted?_eq_none_iff.2 hq, hg]

/-- There is no atom at the end of a text. -/
theorem not_isAtom_nil : ¬ IsAtom n [] pulled a rest := by
  intro h
  cases h with
  | placeholder hm hgroup => exact Nesting.not_opens_nil _ hgroup.opens
  | literal hn hq => cases Text.quoted?_eq_some_iff.2 hq
  | group hn hq hgroup => exact Nesting.not_opens_nil _ hgroup.opens

/-- A group that is not closed starts with something. -/
theorem UnclosedAtom.ne_nil (h : UnclosedAtom n t ahead) : t ≠ [] := by
  rintro rfl
  cases h with
  | placeholder hm hunclosed => exact Nesting.not_opens_nil _ hunclosed.opens
  | group hn hq hunclosed => exact Nesting.not_opens_nil _ hunclosed.opens

/-- An atom is read if no other lines are to come than those that it goes on over. -/
theorem IsAtom.exists_atom_eq (h : IsAtom n t pulled a rest) :
    ∃ c u, t = c :: u ∧ atom n c u ⟨pulled, 0⟩ = (.ok (a, rest), ⟨[], pulled.length⟩) := by
  cases t with
  | nil => exact absurd h not_isAtom_nil
  | cons c t =>
    have hall : Cursor.Pulled ⟨pulled, 0⟩ pulled ⟨[], pulled.length⟩ :=
      ⟨(List.append_nil _).symm, (Nat.zero_add _).symm⟩
    exact ⟨c, t, rfl, atom_eq_ok_iff.2 ⟨pulled, hall, h⟩⟩

/-- What an atom leaves is one line if all lines are. -/
theorem IsAtom.oneLine (h : IsAtom n t pulled a rest) (ht : t.OneLine)
    (hpulled : ∀ raw ∈ pulled, raw.OneLine) : rest.OneLine := by
  obtain ⟨c, u, rfl, hread⟩ := h.exists_atom_eq
  exact (atom_leads hread).carries (fun hs hline => hline.of_isInfix hs.isInfix) ht hpulled

/-- The atom at the front of a text is unique, given the lines it goes on over. -/
theorem IsAtom.eq_of_isAtom {a' rest' : Text} (h : IsAtom n t pulled a rest)
    (h' : IsAtom n t pulled a' rest') : a = a' ∧ rest = rest' := by
  obtain ⟨c, u, rfl, hread⟩ := h.exists_atom_eq
  obtain ⟨c', u', hcons, hread'⟩ := h'.exists_atom_eq
  cases hcons
  cases hread.symm.trans hread'
  exact ⟨rfl, rfl⟩

/-- At the end of a line there is nothing to go on over lines. -/
theorem eq_of_isAtom_feed (hn : ∀ m, n = some m → m.Inner) (h : IsAtom n ['\n'] pulled a rest) :
    pulled = [] ∧ rest = [] := by
  cases h with
  | placeholder hm hgroup => exact absurd hgroup.opens (Nesting.not_opens_feed (hn _ hm))
  | literal _ hq => cases Text.quoted?_eq_some_iff.2 hq
  | group _ hq hgroup =>
    exact absurd hgroup.opens (Nesting.not_opens_feed Nesting.inner_brackets)
  | char => exact ⟨rfl, rfl⟩

/-- Anything can be put in front of a line and of any lines after it, unless this is a line end that
is dropped there. -/
theorem append_spliced_of_ne {x : Text} {lines : List Text}
    (hlines : lines ≠ [] → rest ≠ [] ∧ rest ≠ ['\n']) :
    x ++ spliced (rest :: lines) = spliced ((x ++ rest) :: lines) := by
  by_cases hnil : lines = []
  · rw [hnil]
    rfl
  · obtain ⟨hne, hfeed⟩ := hlines hnil
    have hdrop : Text.dropTerminator (x ++ rest) = x ++ rest.dropTerminator :=
      Text.dropTerminator_append_of_getLast? (absurd · hne) (absurd · hfeed)
    exact (Nesting.append_spliced hdrop rfl).symm

/-- An atom can be put in front of what follows it and of any lines after that, unless it reaches
into a line end that is dropped there. -/
theorem IsAtom.append_spliced (h : IsAtom n t pulled a rest) (hn : ∀ m, n = some m → m.Inner)
    (ht : t.OneLine) (hpulled : ∀ raw ∈ pulled, raw.OneLine) {lines : List Text}
    (hlines : lines ≠ [] → rest ≠ [] ∧ rest ≠ ['\n']) :
    a ++ spliced (rest :: lines) = spliced (t :: (pulled.map Text.trimStart ++ lines)) := by
  cases h with
  | placeholder hm hgroup => exact hgroup.append_spliced_cons (hn _ hm) ht hpulled lines
  | literal _ hq =>
    have hquoted := Text.quoted?_eq_some_iff.2 hq
    exact (Nesting.append_spliced (Text.dropTerminator_of_quoted? hquoted)
      (Text.eq_append_of_quoted? hquoted)).symm
  | group _ _ hgroup => exact hgroup.append_spliced_cons Nesting.inner_brackets ht hpulled lines
  | char => exact append_spliced_of_ne hlines

end

/-! ## Atoms in a row -/

/-- From `t` on, over the lines `pulled`, the atoms `parts` are read and leave `rest` of the last
line. No terminator begins where one of them begins. -/
inductive PassesAtoms (n : Nesting) (stops : List Text) :
    Text → List Text → List Text → Text → Prop
  | nil (t : Text) : PassesAtoms n stops t [] [] t
  | cons {t a t' rest : Text} {pulled pulled' parts : List Text}
      (hstops : ∀ stop ∈ stops, ¬ stop <+: t) (ha : IsAtom (some n) t pulled a t')
      (h : PassesAtoms n stops t' pulled' parts rest) :
      PassesAtoms n stops t (pulled ++ pulled') (a :: parts) rest

/-- A token is at its end: there is nothing left, or a terminator begins. -/
def AtStop (stops : List Text) (t : Text) : Prop :=
  t = [] ∨ ∃ stop ∈ stops, stop <+: t

section

variable {n : Nesting} {stops : List Text} {t read rest : Text} {pulled parts : List Text}
  {cur cur' : Cursor} {e : Diagnostic}

/-- Some terminator begins here. -/
theorem any_isPrefixOf_iff :
    stops.any (·.isPrefixOf t) = true ↔ ∃ stop ∈ stops, stop <+: t := by
  simp

/-- No terminator begins here. -/
theorem any_isPrefixOf_eq_false_iff :
    stops.any (·.isPrefixOf t) = false ↔ ∀ stop ∈ stops, ¬ stop <+: t := by
  simp

/-- Nothing is read on from the end of a line over further lines. -/
theorem PassesAtoms.ne_of_pulled (h : PassesAtoms n stops t pulled parts rest) (hn : n.Inner)
    (hpulled : pulled ≠ []) : t ≠ [] ∧ t ≠ ['\n'] := by
  cases h with
  | nil => exact absurd rfl hpulled
  | @cons _ a t' _ pulled pulled' parts hstops ha h =>
    refine ⟨?_, ?_⟩
    · rintro rfl
      exact not_isAtom_nil ha
    · rintro rfl
      obtain ⟨rfl, rfl⟩ := eq_of_isAtom_feed (by rintro m ⟨⟩; exact hn) ha
      cases h with
      | nil => exact hpulled rfl
      | cons _ ha' _ => exact not_isAtom_nil ha'

/-- What is read and what is left are the lines, put together. -/
theorem PassesAtoms.flatten_append (h : PassesAtoms n stops t pulled parts rest) (hn : n.Inner)
    (ht : t.OneLine) (hpulled : ∀ raw ∈ pulled, raw.OneLine) :
    parts.flatten ++ rest = spliced (t :: pulled.map Text.trimStart) := by
  induction h with
  | nil => rfl
  | @cons t a t' rest pulled pulled' parts hstops ha h ih =>
    have hfirst : ∀ raw ∈ pulled, raw.OneLine := fun raw hraw =>
      hpulled raw (List.mem_append_left _ hraw)
    -- The line end at which a line is put to the next one is inside of a group and no atom itself.
    have hlines : pulled'.map Text.trimStart ≠ [] → t' ≠ [] ∧ t' ≠ ['\n'] := by
      intro hne
      exact h.ne_of_pulled hn fun hnil => hne (by rw [hnil]; rfl)
    have hrest := ih (ha.oneLine ht hfirst) fun raw hraw =>
      hpulled raw (List.mem_append_right _ hraw)
    calc (a :: parts).flatten ++ rest
      _ = a ++ spliced (t' :: pulled'.map Text.trimStart) := by
        rw [List.flatten_cons, List.append_assoc, hrest]
      _ = spliced (t :: (pulled ++ pulled').map Text.trimStart) := by
        rw [ha.append_spliced (by rintro m ⟨⟩; exact hn) ht hfirst hlines, List.map_append]

/-- A token is read atom by atom, up to the first place where it is at its end. -/
theorem atoms_eq_ok_iff : atoms n stops t cur = (.ok (read, rest), cur') ↔
    ∃ pulled parts, cur.Pulled pulled cur' ∧ PassesAtoms n stops t pulled parts rest ∧
      AtStop stops rest ∧ read = parts.flatten := by
  constructor
  · intro h
    fun_induction atoms n stops t cur generalizing read rest cur' with
    | case1 cur =>
      cases h
      exact ⟨[], [], .refl _, .nil _, .inl rfl, rfl⟩
    | case2 cur c t hstop =>
      cases h
      exact ⟨[], [], .refl _, .nil _, .inr (any_isPrefixOf_iff.1 hstop), rfl⟩
    | case3 => cases h
    | case4 => cases h
    | case5 cur c t hstop a rest₁ cur₁ ha more rest₂ cur₂ hmore ih =>
      cases h
      obtain ⟨pulled, hpulled, hatom⟩ := atom_eq_ok_iff.1 ha
      obtain ⟨pulled', parts, hpulled', hpasses, hend, rfl⟩ := ih hmore
      have hstops := any_isPrefixOf_eq_false_iff.1 (Bool.eq_false_iff.2 hstop)
      exact ⟨pulled ++ pulled', a :: parts, hpulled.trans hpulled', .cons hstops hatom hpasses,
        hend, rfl⟩
  · rintro ⟨pulled, parts, hpulled, hpasses, hend, rfl⟩
    induction hpasses generalizing cur with
    | nil t =>
      obtain rfl := hpulled.eq_of_nil
      cases t with
      | nil => exact atoms_nil n stops _
      | cons c t =>
        have hstop := hend.resolve_left (List.cons_ne_nil c t)
        exact atoms_of_stop _ (any_isPrefixOf_iff.2 hstop)
    | @cons t a t' rest pulled pulled' parts hstops ha h ih =>
      cases t with
      | nil => exact absurd ha not_isAtom_nil
      | cons c t =>
        obtain ⟨cur₁, hfirst, hrest⟩ := hpulled.exists_append
        rw [atoms_of_atom (any_isPrefixOf_eq_false_iff.2 hstops)
          (atom_eq_ok_iff.2 ⟨pulled, hfirst, ha⟩), ih hrest hend]
        rfl

/-- Behind some atoms, a group opens that is not closed in the lines there are. This is the fault,
and all lines have been pulled. -/
def FailsBehind (n : Nesting) (stops : List Text) (t : Text) (cur : Cursor) (e : Diagnostic)
    (cur' : Cursor) : Prop :=
  ∃ pulled parts rest cur₁, cur.Pulled pulled cur₁ ∧ PassesAtoms n stops t pulled parts rest ∧
    (∀ stop ∈ stops, ¬ stop <+: rest) ∧ UnclosedAtom (some n) rest cur₁.ahead ∧
    cur' = ⟨[], cur₁.number + cur₁.ahead.length⟩ ∧
    e = .unterminated cur'.number
      ((rest :: cur₁.ahead.map Text.trimStart).flatMap Text.dropTerminator)

/-- A token is a fault exactly if one of its groups is not closed. -/
theorem atoms_eq_error_iff (hn : n.Inner) (hline : Place.OneLine ⟨t, cur⟩) :
    atoms n stops t cur = (.error e, cur') ↔ FailsBehind n stops t cur e cur' := by
  have hsome : ∀ m, some n = some m → m.Inner := by
    rintro m ⟨⟩
    exact hn
  constructor
  · intro h
    fun_induction atoms n stops t cur generalizing e cur' with
    | case1 => cases h
    | case2 => cases h
    | case3 cur c t hstop e₁ cur₁ ha =>
      cases h
      obtain ⟨hunclosed, hend⟩ := (atom_eq_error_iff hsome hline).1 ha
      have hstops := any_isPrefixOf_eq_false_iff.1 (Bool.eq_false_iff.2 hstop)
      exact ⟨[], [], c :: t, cur, .refl cur, .nil _, hstops, hunclosed, hend⟩
    | case4 cur c t hstop a rest cur₁ ha e₁ cur₂ hmore ih =>
      cases h
      obtain ⟨pulled, hpulled, hatom⟩ := atom_eq_ok_iff.1 ha
      obtain ⟨pulled', parts, rest', cur₃, hpulled', hpasses, hfault⟩ :=
        ih (hline.of_yields (atom_leads ha).yields) hmore
      have hstops := any_isPrefixOf_eq_false_iff.1 (Bool.eq_false_iff.2 hstop)
      exact ⟨pulled ++ pulled', a :: parts, rest', cur₃, hpulled.trans hpulled',
        .cons hstops hatom hpasses, hfault⟩
    | case5 => cases h
  · rintro ⟨pulled, parts, rest, cur₁, hpulled, hpasses, hstops, hunclosed, hend⟩
    induction hpasses generalizing cur with
    | nil t =>
      obtain rfl := hpulled.eq_of_nil
      cases t with
      | nil => exact absurd rfl hunclosed.ne_nil
      | cons c t =>
        have ha := (atom_eq_error_iff hsome hline).2 ⟨hunclosed, hend⟩
        have hpass := atomsPass_iterates n stops () ⟨c :: t, cur₁⟩
        simp only [atomsPass, any_isPrefixOf_eq_false_iff.2 hstops, ha, Bool.false_eq_true,
          if_false] at hpass
        exact hpass
    | @cons t a t' rest pulled pulled' parts hstops' ha h ih =>
      cases t with
      | nil => exact absurd ha not_isAtom_nil
      | cons c t =>
        obtain ⟨cur₂, hfirst, hrest⟩ := hpulled.exists_append
        have hread := atom_eq_ok_iff.2 ⟨pulled, hfirst, ha⟩
        rw [atoms_of_atom (any_isPrefixOf_eq_false_iff.2 hstops') hread,
          ih (hline.of_yields (atom_leads hread).yields) hrest hstops hunclosed hend]
        rfl

end

/-! ## Tokens -/

/-- From the line `line` on, over the lines `pulled`, the text `buf` is `lead` and the atoms up to
the first place where the token is at its end. What follows there is `tail`. -/
def IsToken (n : Nesting) (lead : Text) (stops : List Text) (line : Text) (pulled : List Text)
    (buf tail : Text) : Prop :=
  ∃ after parts, line = lead ++ after ∧ PassesAtoms n stops after pulled parts tail ∧
    AtStop stops tail ∧ buf = lead ++ parts.flatten

section

variable {n : Nesting} {lead : Text} {stops : List Text} {line token buf tail : Text}
  {pulled : List Text} {cur cur' : Cursor} {e : Diagnostic}

/-- What is read and what follows it are the lines, put together. -/
theorem IsToken.append_eq_spliced (h : IsToken n lead stops line pulled buf tail) (hn : n.Inner)
    (hline : line.OneLine) (hpulled : ∀ raw ∈ pulled, raw.OneLine) :
    buf ++ tail = spliced (line :: pulled.map Text.trimStart) := by
  obtain ⟨after, parts, rfl, hpasses, -, rfl⟩ := h
  have hafter : Text.OneLine after := hline.of_isInfix (List.suffix_append lead after).isInfix
  rw [List.append_assoc, hpasses.flatten_append hn hafter hpulled]
  refine append_spliced_of_ne fun hne => hpasses.ne_of_pulled hn ?_
  rintro rfl
  exact hne rfl

/-- A token is found exactly where there is one, on a line that is not empty. -/
theorem token?_eq_some_iff : token? n lead stops line cur = (.ok (some (token, tail)), cur') ↔
    line ≠ [] ∧ ∃ pulled buf, cur.Pulled pulled cur' ∧ IsToken n lead stops line pulled buf tail ∧
      token = buf.trimEnd := by
  constructor
  · intro h
    unfold token? at h
    split at h
    · cases h
    · rename_i hempty
      split at h
      · cases h
      · rename_i after hafter
        split at h
        · cases h
        · rename_i read rest cur₁ hatoms
          cases h
          obtain ⟨pulled, parts, hpulled, hpasses, hend, rfl⟩ := atoms_eq_ok_iff.1 hatoms
          exact ⟨mt List.isEmpty_iff.2 hempty, pulled, lead ++ parts.flatten, hpulled,
            ⟨after, parts, Text.after?_eq_some_iff.1 hafter, hpasses, hend, rfl⟩, rfl⟩
  · rintro ⟨hne, pulled, buf, hpulled, ⟨after, parts, rfl, hpasses, hend, rfl⟩, rfl⟩
    have hafter : Text.after? lead (lead ++ after) = some after := Text.after?_eq_some_iff.2 rfl
    have hatoms := atoms_eq_ok_iff.2 ⟨pulled, parts, hpulled, hpasses, hend, rfl⟩
    simp only [token?, if_neg (mt List.isEmpty_iff.1 hne), hafter, hatoms]

/-- Reading a token fails exactly where a group behind some of its atoms is not closed. -/
theorem token?_eq_error_iff (hn : n.Inner) (hline : line.OneLine)
    (hahead : ∀ raw ∈ cur.ahead, raw.OneLine) :
    token? n lead stops line cur = (.error e, cur') ↔
      ∃ after, line = lead ++ after ∧ FailsBehind n stops after cur e cur' := by
  have hbehind : ∀ after, line = lead ++ after → Place.OneLine ⟨after, cur⟩ := by
    rintro after rfl
    exact ⟨hline.of_isInfix (List.suffix_append lead after).isInfix, hahead⟩
  constructor
  · intro h
    unfold token? at h
    split at h
    · cases h
    · split at h
      · cases h
      · rename_i after hafter
        have heq := Text.after?_eq_some_iff.1 hafter
        split at h
        · rename_i hatoms
          cases h
          exact ⟨after, heq, (atoms_eq_error_iff hn (hbehind after heq)).1 hatoms⟩
        · cases h
  · rintro ⟨after, rfl, hfails⟩
    have hafter : Text.after? lead (lead ++ after) = some after := Text.after?_eq_some_iff.2 rfl
    have hatoms := (atoms_eq_error_iff hn (hbehind after rfl)).2 hfails
    have hne : lead ++ after ≠ [] := by
      intro hnil
      rw [(List.append_eq_nil_iff.1 hnil).2, atoms_nil] at hatoms
      cases hatoms
    simp only [token?, if_neg (mt List.isEmpty_iff.1 hne), hafter, hatoms]

/-- What reading a token comes to, from the line `line` on. -/
structure TokenEnds (n : Nesting) (lead : Text) (stops : List Text) (line : Text)
    (cur : Cursor) : Prop where
  /-- There is no token in an empty line, and none where its lead is missing. -/
  declines : ∀ cur', token? n lead stops line cur = (.ok none, cur') ↔
    cur' = cur ∧ (line = [] ∨ ¬ lead <+: line)
  /-- Otherwise, the token is its lead and all atoms up to the first terminator, without blanks at
  the end. -/
  reads : ∀ token tail cur', token? n lead stops line cur = (.ok (some (token, tail)), cur') ↔
    line ≠ [] ∧ ∃ pulled buf, cur.Pulled pulled cur' ∧ IsToken n lead stops line pulled buf tail ∧
      token = buf.trimEnd
  /-- The lines that are read are made up of the token and of what follows it. -/
  keeps : ∀ pulled buf tail cur', cur.Pulled pulled cur' →
    IsToken n lead stops line pulled buf tail →
      buf ++ tail = spliced (line :: pulled.map Text.trimStart)
  /-- The only fault is that one of its groups is not closed. -/
  fails : ∀ e cur', token? n lead stops line cur = (.error e, cur') ↔
    ∃ after, line = lead ++ after ∧ FailsBehind n stops after cur e cur'

/-- A token ends at the first terminator outside of all placeholders, literals and brackets. -/
theorem token?_ends (lead : Text) (stops : List Text) (hn : n.Inner) (hline : line.OneLine)
    (hahead : ∀ raw ∈ cur.ahead, raw.OneLine) : TokenEnds n lead stops line cur where
  declines _ := token?_eq_none_iff
  reads _ _ _ := token?_eq_some_iff
  keeps _ _ _ _ hpulled h := h.append_eq_spliced hn hline fun raw hraw =>
    hahead raw (hpulled.mem_ahead hraw)
  fails _ _ := token?_eq_error_iff hn hline hahead

end

/-- A class with a placeholder over two lines. The full stop, the bracket and the colon inside of it
do not end the class, and the full stop behind it does. -/
theorem token?_ends_placeholder :
    Delimiters.mako.placeholder.Inner ∧ Text.OneLine ".a-$\x7bb.c(\n".toList ∧
    (∀ raw ∈ ["  ':' )\x7dd.e\n".toList, "f\n".toList], Text.OneLine raw) ∧
    ∃ pulled buf, Cursor.Pulled ⟨["  ':' )\x7dd.e\n".toList, "f\n".toList], 0⟩ pulled
        ⟨["f\n".toList], 1⟩ ∧
      IsToken Delimiters.mako.placeholder ['.'] shortcutStops ".a-$\x7bb.c(\n".toList pulled buf
        ".e\n".toList ∧
      buf ++ ".e\n".toList = spliced (".a-$\x7bb.c(\n".toList :: pulled.map Text.trimStart) ∧
      ".a-$\x7bb.c(':' )\x7dd".toList = buf.trimEnd := by
  have hn : Delimiters.mako.placeholder.Inner := ⟨by decide, by decide⟩
  have hline : Text.OneLine ".a-$\x7bb.c(\n".toList := by decide
  have hahead : ∀ raw ∈ ["  ':' )\x7dd.e\n".toList, "f\n".toList], Text.OneLine raw := by decide
  have hends : TokenEnds Delimiters.mako.placeholder ['.'] shortcutStops ".a-$\x7bb.c(\n".toList
      ⟨["  ':' )\x7dd.e\n".toList, "f\n".toList], 0⟩ :=
    token?_ends ['.'] shortcutStops hn hline hahead
  obtain ⟨-, pulled, buf, hpulled, htoken, htrim⟩ :=
    (hends.reads ".a-$\x7bb.c(':' )\x7dd".toList ".e\n".toList ⟨["f\n".toList], 1⟩).1
      (by decide +kernel)
  exact ⟨hn, hline, hahead, pulled, buf, hpulled, htoken, hends.keeps _ _ _ _ hpulled htoken, htrim⟩

end TerseMarkup
