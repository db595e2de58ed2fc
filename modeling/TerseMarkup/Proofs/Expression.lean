import TerseMarkup.Proofs.InlineContent
import TerseMarkup.Proofs.Token

/-!
# What expressions keep

An expression is read in stretches (`Expression.IsScan`): an atom, which may go on over lines if it
is a bracket group, or a backslash with nothing but blanks behind it, for which the next line is
pulled. Each atom stays in the expression. A backslash of this kind is left out, and any number of
them in a row read as one space. Apart from blanks, nothing else is lost and nothing is added.

* `IsScan.ink_written`: the stretches are the characters of the lines.
* `expressionAtoms_eq_ok_iff`: what is read are the stretches.
* `expressionAtoms_of_bracketsClose`: without brackets that stay open, no line is pulled.
* `expression_keeps`: what reading an expression comes to.
-/

namespace TerseMarkup

/-! ## All but the blanks -/

namespace Text

variable {t u : Text}

/-- The characters of a text that are not blank. -/
def ink (t : Text) : Text :=
  t.filter fun c => !isBlank c

/-- The ink of two texts is that of both. -/
theorem ink_append (t u : Text) : ink (t ++ u) = ink t ++ ink u :=
  List.filter_append _ _

/-- A blank text has no ink. -/
theorem ink_eq_nil (h : ∀ c ∈ t, isBlank c = true) : ink t = [] := by
  refine List.filter_eq_nil_iff.2 fun c hc => ?_
  simp [h c hc]

/-- Blanks at the end add no ink. -/
theorem ink_append_blank (h : ∀ c ∈ u, isBlank c = true) : ink (t ++ u) = ink t := by
  rw [ink_append, ink_eq_nil h, List.append_nil]

/-- Trimming at the front keeps the ink. -/
theorem ink_trimStart (t : Text) : ink t.trimStart = ink t := by
  induction t with
  | nil => rfl
  | cons c t ih =>
    rw [trimStart_cons]
    split
    · rename_i hc
      rw [ih]
      simp [ink, hc]
    · rfl

/-- Trimming at the end keeps the ink. -/
theorem ink_trimEnd (t : Text) : ink t.trimEnd = ink t := by
  obtain ⟨u, hu, hblank⟩ := exists_trimEnd_append t
  have hink := congrArg ink hu
  rw [ink_append_blank (List.all_eq_true.1 hblank)] at hink
  exact hink.symm

/-- Trimming keeps the ink. -/
theorem ink_trim (t : Text) : ink t.trim = ink t := by
  unfold trim
  rw [ink_trimEnd, ink_trimStart]

/-- A terminator is no ink. -/
theorem ink_dropTerminator (t : Text) : ink t.dropTerminator = ink t := by
  have hfeed : ∀ c ∈ ['\n'], isBlank c = true := forall_mem_of_all (by decide)
  have hreturn : ∀ c ∈ ['\r'], isBlank c = true := forall_mem_of_all (by decide)
  unfold dropTerminator
  split
  · rename_i hlast
    obtain ⟨u, rfl⟩ := List.getLast?_eq_some_iff.1 hlast
    rw [List.dropLast_concat, ink_append_blank hfeed]
    split
    · rename_i hlast
      obtain ⟨v, rfl⟩ := List.getLast?_eq_some_iff.1 hlast
      rw [List.dropLast_concat, ink_append_blank hreturn]
    · rfl
  · rfl

/-- The ink of lines does not depend on the blanks in front of them. -/
theorem ink_flatten_trimStart (lines : List Text) :
    ink (lines.map trimStart).flatten = ink lines.flatten := by
  induction lines with
  | nil => rfl
  | cons raw lines ih =>
    rw [List.map_cons, List.flatten_cons, List.flatten_cons, ink_append, ink_append, ink_trimStart,
      ih]

end Text

open Text (ink ink_append ink_append_blank)
open Nesting (spliced)

/-- Splicing lines keeps their ink. -/
theorem Nesting.ink_spliced (lines : List Text) : ink (spliced lines) = ink lines.flatten := by
  fun_induction spliced lines with
  | case1 => rfl
  | case2 t => rw [List.flatten_singleton]
  | case3 t u lines ih =>
    have hcons : (t :: u :: lines).flatten = t ++ (u :: lines).flatten := List.flatten_cons
    rw [hcons, ink_append, ink_append, Text.ink_dropTerminator, ih]

/-- Apart from blanks, an atom and what it leaves are the lines that it goes on over. -/
theorem IsAtom.ink_append {t a rest : Text} {pulled : List Text} (h : IsAtom none t pulled a rest)
    (ht : t.OneLine) (hpulled : ∀ raw ∈ pulled, raw.OneLine) :
    ink (a ++ rest) = ink (t ++ pulled.flatten) := by
  have hspliced : a ++ rest = spliced (t :: (pulled.map Text.trimStart ++ [])) :=
    h.append_spliced (by rintro m ⟨⟩) ht hpulled (absurd rfl)
  rw [hspliced, List.append_nil, Nesting.ink_spliced, List.flatten_cons, Text.ink_append,
    Text.ink_flatten_trimStart, Text.ink_append]

/-! ## Stretches -/

/-- A lone backslash is all that is left of the line, apart from blanks. -/
def Text.AtBreak (t : Text) : Prop :=
  ∃ u, t = '\\' :: u ∧ ∀ c ∈ u, isBlank c = true

/-- `isBreak` finds a backslash that is all that is left of its line. -/
theorem isBreak_iff {t : Text} : isBreak t = true ↔ t.AtBreak := by
  cases t with
  | nil => simp [isBreak, Text.AtBreak]
  | cons c t => simp [isBreak, Text.AtBreak, and_assoc]

/-- The same where there is none. -/
theorem isBreak_eq_false_iff {t : Text} : isBreak t = false ↔ ¬ t.AtBreak := by
  rw [← isBreak_iff, Bool.not_eq_true]

/-- A backslash at the end of a line is all the ink there is. -/
theorem Text.AtBreak.ink_eq {t : Text} (h : t.AtBreak) : ink t = ['\\'] := by
  obtain ⟨u, rfl, hblank⟩ := h
  exact ink_append_blank (t := ['\\']) hblank

namespace Expression

/-- A stretch of an expression: an atom, or a backslash at the end of its line. -/
inductive Stretch where
  | atom (a : Text)
  | slash
  deriving DecidableEq, Repr

/-- The characters of a stretch. -/
def Stretch.written : Stretch → Text
  | atom a => a
  | slash => ['\\']

/-- The characters of a stretch that stay in the expression. -/
def Stretch.kept : Stretch → Text
  | atom a => a
  | slash => []

/-- What stretches read as. Backslashes in a row are one space. -/
def shown : List Stretch → Text
  | [] => []
  | .atom a :: ps => a ++ shown ps
  | .slash :: ps => if ps.head? = some .slash then shown ps else ' ' :: shown ps

/-- From `t` on, over the lines `pulled`, an expression has the stretches `ps`. The lines `left` are
still to come where it ends. A backslash at the end of the last line there is ends it as well. -/
inductive IsScan : Text → List Text → List Stretch → List Text → Prop
  | done (left : List Text) : IsScan [] [] [] left
  | last {t : Text} (ht : t.AtBreak) : IsScan t [] [.slash] []
  | slash {t raw : Text} {pulled left : List Text} {ps : List Stretch} (ht : t.AtBreak)
      (h : IsScan raw.trimStart pulled ps left) : IsScan t (raw :: pulled) (.slash :: ps) left
  | atom {t a rest : Text} {pulled pulled' left : List Text} {ps : List Stretch}
      (ht : ¬ t.AtBreak) (ha : IsAtom none t pulled a rest) (h : IsScan rest pulled' ps left) :
      IsScan t (pulled ++ pulled') (.atom a :: ps) left

variable {t read rest : Text} {pulled left : List Text} {ps : List Stretch} {cur cur' : Cursor}

/-- What stretches read as has the ink of what is kept of them. -/
theorem ink_shown (ps : List Stretch) : ink (shown ps) = ink (ps.flatMap Stretch.kept) := by
  fun_induction shown ps with
  | case1 => rfl
  | case2 a ps ih => rw [List.flatMap_cons, ink_append, ink_append, ih, Stretch.kept]
  | case3 ps hslash ih => exact ih
  | case4 ps hslash ih => exact ih

/-- Apart from blanks, the stretches of an expression are its lines. -/
theorem IsScan.ink_written (h : IsScan t pulled ps left) (ht : t.OneLine)
    (hpulled : ∀ raw ∈ pulled, raw.OneLine) :
    ink (t ++ pulled.flatten) = ink (ps.flatMap Stretch.written) := by
  induction h with
  | done => rfl
  | last hbreak =>
    rw [List.flatten_nil, List.append_nil]
    exact hbreak.ink_eq
  | @slash t raw pulled left ps hbreak h ih =>
    have hraw : raw.trimStart.OneLine :=
      (hpulled raw List.mem_cons_self).of_isInfix (Text.trimStart_suffix raw).isInfix
    have hrest := ih hraw fun line hline => hpulled line (List.mem_cons_of_mem raw hline)
    rw [ink_append, Text.ink_trimStart] at hrest
    rw [List.flatten_cons, List.flatMap_cons, ink_append, ink_append, ink_append, hbreak.ink_eq,
      hrest]
    rfl
  | @atom t a rest pulled pulled' left ps hbreak ha h ih =>
    have hfirst : ∀ raw ∈ pulled, raw.OneLine := fun raw hraw =>
      hpulled raw (List.mem_append_left _ hraw)
    have hatom := ha.ink_append ht hfirst
    have hrest := ih (ha.oneLine ht hfirst) fun raw hraw =>
      hpulled raw (List.mem_append_right _ hraw)
    calc ink (t ++ (pulled ++ pulled').flatten)
      _ = ink (t ++ pulled.flatten) ++ ink pulled'.flatten := by
        rw [List.flatten_append, ← List.append_assoc, ink_append]
      _ = ink a ++ ink (rest ++ pulled'.flatten) := by
        rw [← hatom, ink_append, ink_append, List.append_assoc]
      _ = ink ((.atom a :: ps).flatMap Stretch.written) := by
        rw [hrest, List.flatMap_cons, ink_append, Stretch.written]

/-- The first stretch is a backslash exactly if the text is one. -/
theorem IsScan.head?_eq_slash_iff (h : IsScan t pulled ps left) :
    ps.head? = some .slash ↔ t.AtBreak := by
  cases h with
  | done => simp [Text.AtBreak]
  | last ht => exact iff_of_true rfl ht
  | slash ht h => exact iff_of_true rfl ht
  | atom ht ha h => exact iff_of_false (by simp) ht

/-- A backslash is shown as a space, unless another one follows. -/
theorem IsScan.shown_slash (h : IsScan t pulled ps left) :
    shown (.slash :: ps) = breakText (!isBreak t) ++ shown ps := by
  have hhead := h.head?_eq_slash_iff
  rw [← isBreak_iff] at hhead
  by_cases hbreak : isBreak t = true
  · rw [shown, if_pos (hhead.2 hbreak), hbreak]
    rfl
  · rw [shown, if_neg (mt hhead.1 hbreak), Bool.eq_false_iff.2 hbreak]
    rfl

/-! ## Reading stretches -/

/-- Puts a text in front of what is read. -/
def prependText (x : Text) : Outcome Text → Outcome Text
  | (.error e, cur) => (.error e, cur)
  | (.ok more, cur) => (.ok (x ++ more), cur)

/-- Nothing in front changes nothing. -/
theorem prependText_nil (out : Outcome Text) : prependText [] out = out := by
  obtain ⟨result, cur⟩ := out
  cases result <;> rfl

/-- Texts can be put in front one by one. -/
theorem prependText_append (x y : Text) (out : Outcome Text) :
    prependText (x ++ y) out = prependText x (prependText y out) := by
  obtain ⟨result, cur⟩ := out
  cases result with
  | error => rfl
  | ok more => simp only [prependText, List.append_assoc]

/-- With a text in front, a result is that text and a result. -/
theorem prependText_eq_ok_iff {x : Text} {out : Outcome Text} :
    prependText x out = (.ok read, cur) ↔ ∃ more, out = (.ok more, cur) ∧ read = x ++ more := by
  obtain ⟨result, cur₁⟩ := out
  cases result with
  | error => simp [prependText]
  | ok more =>
    constructor
    · rintro ⟨⟩
      exact ⟨more, rfl, rfl⟩
    · rintro ⟨more, ⟨⟩, rfl⟩
      rfl

/-- A continuation and an atom are put in front as one text. -/
theorem prependPiece_eq (found : Bool) (a : Text) (out : Outcome Text) :
    prependPiece found a out = prependText (breakText found ++ a) out := by
  obtain ⟨result, cur⟩ := out
  cases result <;> rfl

/-- What is read where no continuation is left to follow. -/
def afterBreaks (t : Text) (cur : Cursor) : Outcome Text :=
  match t with
  | [] => (.ok [], cur)
  | c :: t =>
    match atom none c t cur with
    | (.error e, cur') => (.error e, cur')
    | (.ok (a, rest), cur') => prependText a (expressionAtoms rest cur')

/-- An expression starts with what its continuations read as. -/
theorem expressionAtoms_of_followBreaks {found : Bool} {u : Text}
    (h : followBreaks t cur = (found, u, cur')) :
    expressionAtoms t cur = prependText (breakText found) (afterBreaks u cur') := by
  cases t with
  | nil =>
    rw [followBreaks_of_not_isBreak rfl] at h
    cases h
    exact expressionAtoms_nil _
  | cons c t =>
    have hpass := expressionPass_iterates () ⟨c :: t, cur⟩
    refine hpass.trans ?_
    unfold expressionPass
    simp only [List.isEmpty_cons, Bool.false_eq_true, if_false, h]
    cases u with
    | nil =>
      show ((.ok (breakText found), cur') : Outcome Text) = (.ok (breakText found ++ []), cur')
      rw [List.append_nil]
    | cons b u =>
      simp only [afterBreaks]
      obtain ⟨result, cur₁⟩ := atom none b u cur'
      cases result with
      | error => rfl
      | ok found' =>
        obtain ⟨a, rest⟩ := found'
        simp only [Pass.finish, prependPiece_eq, prependText_append]

/-- Without a continuation, an expression starts with an atom. -/
theorem expressionAtoms_of_not_isBreak (h : isBreak t = false) (cur : Cursor) :
    expressionAtoms t cur = afterBreaks t cur := by
  rw [expressionAtoms_of_followBreaks (followBreaks_of_not_isBreak h cur)]
  exact prependText_nil _

/-- A continuation on the last line reads as a space. -/
theorem expressionAtoms_of_last (h : isBreak t = true) (number : Nat) :
    expressionAtoms t ⟨[], number⟩ = (.ok [' '], ⟨[], number⟩) := by
  have hbreaks : followBreaks t ⟨[], number⟩ = (true, [], ⟨[], number⟩) := by
    simp [followBreaks, followBreaksOver, h]
  exact expressionAtoms_of_followBreaks hbreaks

/-- For a backslash at its end, a line is read on with the next one. The space is left to the last
backslash in a row. -/
theorem expressionAtoms_of_isBreak (h : isBreak t = true) (raw : Text) (ahead : List Text)
    (number : Nat) :
    expressionAtoms t ⟨raw :: ahead, number⟩ =
      prependText (breakText (!isBreak raw.trimStart))
        (expressionAtoms raw.trimStart ⟨ahead, number + 1⟩) := by
  obtain ⟨found, u, cur₁, hrest⟩ :
      ∃ found u cur₁, followBreaks raw.trimStart ⟨ahead, number + 1⟩ = (found, u, cur₁) :=
    ⟨_, _, _, rfl⟩
  have hbreaks : followBreaks t ⟨raw :: ahead, number⟩ = (true, u, cur₁) := by
    have hsnd := congrArg Prod.snd hrest
    unfold followBreaks at hsnd ⊢
    rw [followBreaksOver, if_pos h, hsnd]
  rw [expressionAtoms_of_followBreaks hbreaks, expressionAtoms_of_followBreaks hrest,
    ← prependText_append, isBreak_of_followBreaks hrest]
  cases found <;> rfl

/-- Whatever is read as an expression has stretches, and they read as it. -/
theorem exists_isScan (h : expressionAtoms t cur = (.ok read, cur')) :
    ∃ pulled ps, cur.Pulled pulled cur' ∧ IsScan t pulled ps cur'.ahead ∧ read = shown ps := by
  -- The loop follows all backslashes in a row at once, and a stretch is only one of them. So the
  -- induction is on what there is to read and not on the passes of the loop.
  induction hsize : cur.size + t.length using Nat.strongRecOn generalizing t cur read with
  | ind size ih =>
    cases hbreak : isBreak t with
    | true =>
      obtain ⟨ahead, number⟩ := cur
      have ht := isBreak_iff.1 hbreak
      cases ahead with
      | nil =>
        rw [expressionAtoms_of_last hbreak] at h
        cases h
        exact ⟨[], [.slash], .refl _, .last ht, rfl⟩
      | cons raw ahead =>
        rw [expressionAtoms_of_isBreak hbreak] at h
        obtain ⟨more, hmore, rfl⟩ := prependText_eq_ok_iff.1 h
        have hlt : Cursor.size ⟨ahead, number + 1⟩ + raw.trimStart.length < size := by
          have hlength := Text.length_trimStart_le raw
          have hpos := List.length_pos_iff.2 (ne_nil_of_isBreak hbreak)
          rw [← hsize, Cursor.size_cons raw ahead number (number + 1)]
          omega
        obtain ⟨pulled, ps, hpulled, hscan, rfl⟩ := ih _ hlt hmore rfl
        have hpull := Cursor.pulled_of_next? (Cursor.next?_cons raw ahead number)
        exact ⟨raw :: pulled, .slash :: ps, hpull.trans hpulled, .slash ht hscan,
          hscan.shown_slash.symm⟩
    | false =>
      rw [expressionAtoms_of_not_isBreak hbreak] at h
      cases t with
      | nil =>
        cases h
        exact ⟨[], [], .refl _, .done _, rfl⟩
      | cons c t =>
        unfold afterBreaks at h
        simp only at h
        split at h
        · cases h
        · rename_i a rest cur₁ ha
          obtain ⟨more, hmore, rfl⟩ := prependText_eq_ok_iff.1 h
          have hlt : cur₁.size + rest.length < size := hsize ▸ atom_progress ha
          obtain ⟨pulled, hpulled, hatom⟩ := atom_eq_ok_iff.1 ha
          obtain ⟨pulled', ps, hpulled', hscan, rfl⟩ := ih _ hlt hmore rfl
          exact ⟨pulled ++ pulled', .atom a :: ps, hpulled.trans hpulled',
            .atom (isBreak_eq_false_iff.1 hbreak) hatom hscan, rfl⟩

/-- An expression with the given stretches is read as them. -/
theorem IsScan.expressionAtoms_eq (h : IsScan t pulled ps left)
    (hpulled : cur.Pulled pulled cur') (hleft : cur'.ahead = left) :
    expressionAtoms t cur = (.ok (shown ps), cur') := by
  induction h generalizing cur with
  | done left =>
    obtain rfl := hpulled.eq_of_nil
    exact expressionAtoms_nil _
  | last ht =>
    obtain rfl := hpulled.eq_of_nil
    obtain ⟨ahead, number⟩ := cur'
    obtain rfl : ahead = [] := hleft
    exact expressionAtoms_of_last (isBreak_iff.2 ht) number
  | @slash t raw pulled left ps ht h ih =>
    obtain ⟨cur₁, hnext, hrest⟩ := hpulled.exists_next?
    obtain ⟨ahead, number⟩ := cur
    cases ahead with
    | nil => cases hnext
    | cons line ahead =>
      cases hnext
      rw [expressionAtoms_of_isBreak (isBreak_iff.2 ht), ih hrest hleft, h.shown_slash]
      rfl
  | @atom t a rest pulled pulled' left ps ht ha h ih =>
    cases t with
    | nil => exact absurd ha not_isAtom_nil
    | cons c t =>
      obtain ⟨cur₁, hfirst, hrest⟩ := hpulled.exists_append
      rw [expressionAtoms_of_not_isBreak (isBreak_eq_false_iff.2 ht)]
      simp only [afterBreaks, atom_eq_ok_iff.2 ⟨pulled, hfirst, ha⟩, ih hrest hleft]
      rfl

/-- What is read are the stretches of the expression. -/
theorem expressionAtoms_eq_ok_iff : expressionAtoms t cur = (.ok read, cur') ↔
    ∃ pulled ps, cur.Pulled pulled cur' ∧ IsScan t pulled ps cur'.ahead ∧ read = shown ps := by
  refine ⟨exists_isScan, ?_⟩
  rintro ⟨pulled, ps, hpulled, hscan, rfl⟩
  exact hscan.expressionAtoms_eq hpulled rfl

/-! ## Expressions of one line -/

/-- On its line, the text `rest` is reached from `t` on, atom by atom. -/
inductive Within : Text → Text → Prop
  | refl (t : Text) : Within t t
  | step {t a t' rest : Text} (ha : IsAtom none t [] a t') (h : Within t' rest) : Within t rest

/-- Every bracket that opens outside of all literals and groups is closed on its line. -/
def BracketsClose (t : Text) : Prop :=
  ∀ rest, Within t rest → Nesting.brackets.Opens rest →
    (∀ q after, ¬ rest.IsLiteral q after) → ∃ g after, Nesting.brackets.IsGroup rest [] g after

/-- Where all brackets close on the line, its first atom does not pull any other. -/
theorem BracketsClose.exists_isAtom {c : Char} (h : BracketsClose (c :: t)) :
    ∃ a rest, IsAtom none (c :: t) [] a rest := by
  have hnone : NoneOpens none (c :: t) := by
    rintro m ⟨⟩
  by_cases hliteral : ∃ q after, Text.IsLiteral (c :: t) q after
  · obtain ⟨q, after, hliteral⟩ := hliteral
    exact ⟨q, after, .literal hnone hliteral⟩
  · have hq : ∀ q after, ¬ Text.IsLiteral (c :: t) q after := fun q after hlit =>
      hliteral ⟨q, after, hlit⟩
    by_cases hopens : Nesting.brackets.Opens (c :: t)
    · obtain ⟨g, after, hgroup⟩ := h _ (.refl _) hopens hq
      exact ⟨g, after, .group hnone hq hgroup⟩
    · exact ⟨[c], t, .char hnone hq hopens⟩

/-- An atom that pulls no line is cut off its text. -/
theorem append_eq_of_isAtom {a : Text} (h : IsAtom none t [] a rest) : a ++ rest = t := by
  obtain ⟨c, u, rfl, hread⟩ := h.exists_atom_eq
  exact atom_exact hread rfl

/-- If no bracket stays open and there is no backslash at the end, no line is pulled. -/
theorem expressionAtoms_of_bracketsClose (ht : t.Tidy) (h : BracketsClose t) (cur : Cursor) :
    expressionAtoms t cur = (.ok t, cur) := by
  induction hlength : t.length using Nat.strongRecOn generalizing t with
  | ind length ih =>
    cases t with
    | nil => exact expressionAtoms_nil cur
    | cons c t =>
      obtain ⟨a, rest, hatom⟩ := h.exists_isAtom
      have hread := atom_eq_ok_iff.2 ⟨[], .refl cur, hatom⟩
      have hexact := append_eq_of_isAtom hatom
      have hshort : rest.length < length := by
        have hprogress := atom_progress hread
        omega
      have hrest := ih _ hshort (ht.of_suffix ⟨a, hexact⟩) (fun u hu => h u (.step hatom hu)) rfl
      rw [expressionAtoms_of_not_isBreak ht.not_isBreak]
      simp only [afterBreaks, hread, hrest, prependText, hexact]

/-- A tidy text without pulled lines starts with an atom on its line. -/
theorem IsScan.exists_isAtom (h : IsScan t [] ps left) (ht : t.Tidy) (hne : t ≠ []) :
    ∃ a rest ps', IsAtom none t [] a rest ∧ IsScan rest [] ps' left := by
  generalize hlines : ([] : List Text) = lines at h
  cases h with
  | done => exact absurd rfl hne
  | last hbreak => exact absurd hbreak (isBreak_eq_false_iff.1 ht.not_isBreak)
  | slash hbreak => exact absurd hbreak (isBreak_eq_false_iff.1 ht.not_isBreak)
  | @atom _ a rest pulled pulled' _ ps hbreak ha h =>
    obtain ⟨rfl, rfl⟩ := List.append_eq_nil_iff.1 hlines.symm
    exact ⟨a, rest, ps, ha, h⟩

/-- If no line is pulled, no bracket stays open. -/
theorem IsScan.bracketsClose (h : IsScan t [] ps left) (ht : t.Tidy) : BracketsClose t := by
  intro rest hwithin hopens hq
  induction hwithin generalizing ps with
  | refl t =>
    have hne : t ≠ [] := by
      rintro rfl
      exact Nesting.not_opens_nil _ hopens
    obtain ⟨a, rest, ps', ha, -⟩ := h.exists_isAtom ht hne
    cases ha with
    | placeholder hm => cases hm
    | literal _ hliteral => exact absurd hliteral (hq a rest)
    | group _ _ hgroup => exact ⟨a, rest, hgroup⟩
    | char _ _ hb => exact absurd hopens hb
  | @step t a t' rest ha hwithin ih =>
    have hne : t ≠ [] := by
      rintro rfl
      exact not_isAtom_nil ha
    obtain ⟨a', rest', ps', ha', h'⟩ := h.exists_isAtom ht hne
    obtain ⟨rfl, rfl⟩ := ha.eq_of_isAtom ha'
    exact ih h' (ht.of_suffix ⟨a, append_eq_of_isAtom ha⟩) hopens hq

/-! ## Expressions -/

variable {e : Text}

/-- A single line that does not end in a backslash is tidy once it is trimmed. -/
theorem tidy_trim (ht : t.OneLine) (hlast : t.trim.getLast? ≠ some '\\') : t.trim.Tidy := by
  have htrim : t.trim.trimEnd = t.trim :=
    Text.trimEnd_eq_self fun _ => Text.isBlank_getLast?_trimEnd
  refine Text.tidy_of_getLast? ht.feed_not_mem_trim ?_
  rwa [htrim]

/-- An expression does not depend on the blanks around it. -/
theorem expression_trim (t : Text) (cur : Cursor) : expression t.trim cur = expression t cur := by
  unfold expression
  rw [Text.trim_trim]

/-- An expression is what the stretches of its lines read as, trimmed. -/
theorem expression_eq_ok_iff : expression t cur = (.ok e, cur') ↔
    ∃ pulled ps, cur.Pulled pulled cur' ∧ IsScan (t.trim ++ ['\n']) pulled ps cur'.ahead ∧
      e = (shown ps).trim := by
  constructor
  · intro h
    unfold expression at h
    split at h
    · rename_i hread
      cases h
      obtain ⟨pulled, ps, hpulled, hscan, rfl⟩ := expressionAtoms_eq_ok_iff.1 hread
      exact ⟨pulled, ps, hpulled, hscan, rfl⟩
    · cases h
  · rintro ⟨pulled, ps, hpulled, hscan, rfl⟩
    unfold expression
    rw [hscan.expressionAtoms_eq hpulled rfl]

/-- An expression is all on its line exactly if its brackets are. -/
theorem expression_eq_trim_iff (ht : t.OneLine) (hlast : t.trim.getLast? ≠ some '\\') :
    expression t cur = (.ok t.trim, cur) ↔ BracketsClose (t.trim ++ ['\n']) := by
  have htidy := (tidy_trim ht hlast).append_newline ht.feed_not_mem_trim
  constructor
  · intro h
    obtain ⟨pulled, ps, hpulled, hscan, -⟩ := expression_eq_ok_iff.1 h
    have hnil : pulled = [] := by
      have hnumber := hpulled.number
      exact List.length_eq_zero_iff.1 (by omega)
    subst hnil
    exact hscan.bracketsClose htidy
  · intro h
    unfold expression
    rw [expressionAtoms_of_bracketsClose htidy h]
    simp only
    rw [Text.trim_append_blank _ (Text.forall_mem_of_all (by decide)), Text.trim_trim]

/-- What reading an expression comes to, from the text `t` on. -/
structure Keeps (t : Text) (cur : Cursor) : Prop where
  /-- An expression is read in stretches, and it goes on over no other lines than they do. -/
  reads : ∀ e cur', expression t cur = (.ok e, cur') ↔
    ∃ pulled ps, cur.Pulled pulled cur' ∧ IsScan (t.trim ++ ['\n']) pulled ps cur'.ahead ∧
      e = (shown ps).trim
  /-- Apart from blanks, the stretches are all characters of the lines, and those that are not kept
  are the backslashes at line ends. -/
  keeps : ∀ pulled ps cur', cur.Pulled pulled cur' →
    IsScan (t.trim ++ ['\n']) pulled ps cur'.ahead →
      ink (t ++ pulled.flatten) = ink (ps.flatMap Stretch.written) ∧
        ink (shown ps).trim = ink (ps.flatMap Stretch.kept)
  /-- If no line is pulled and there is no backslash at the end, the text is copied. -/
  copies : t.trim.getLast? ≠ some '\\' → ∀ e, expression t cur = (.ok e, cur) → e = t.trim
  /-- If there is no backslash at the end, no line is pulled exactly if no bracket stays open. -/
  stays : t.trim.getLast? ≠ some '\\' →
    (expression t cur = (.ok t.trim, cur) ↔ BracketsClose (t.trim ++ ['\n']))

/-- Expressions lose nothing but blanks and the backslashes that continue their lines. -/
theorem expression_keeps (ht : t.OneLine) (hahead : ∀ raw ∈ cur.ahead, raw.OneLine) :
    Keeps t cur where
  reads _ _ := expression_eq_ok_iff
  keeps pulled ps cur' hpulled hscan := by
    have hfeed : ∀ c ∈ ['\n'], isBlank c = true := Text.forall_mem_of_all (by decide)
    have hline : Text.OneLine (t.trim ++ ['\n']) := .append ht.feed_not_mem_trim (by decide)
    have hwritten := hscan.ink_written hline fun raw hraw => hahead raw (hpulled.mem_ahead hraw)
    rw [ink_append, ink_append_blank hfeed, Text.ink_trim, ← ink_append] at hwritten
    refine ⟨hwritten, ?_⟩
    rw [Text.ink_trim, ink_shown]
  copies hlast e h := by
    rw [← expression_trim] at h
    rw [expression_eq_trim (tidy_trim ht hlast) h, Text.trim_trim]
  stays hlast := expression_eq_trim_iff ht hlast

/-- Two backslashes continue this expression and read as one space. The backslash in the literal and
the brackets around it are kept, and the line after the brackets is not pulled. -/
theorem expression_keeps_literal :
    Text.OneLine " x == \\\n".toList ∧
    (∀ raw ∈ ["\\ \n".toList, "  f('\\n',\n".toList, "    b)\n".toList, "p\n".toList],
      Text.OneLine raw) ∧
    ∃ pulled ps, Cursor.Pulled
        ⟨["\\ \n".toList, "  f('\\n',\n".toList, "    b)\n".toList, "p\n".toList], 0⟩ pulled
        ⟨["p\n".toList], 3⟩ ∧
      IsScan "x == \\\n".toList pulled ps ["p\n".toList] ∧
      ink (" x == \\\n".toList ++ pulled.flatten) = ink (ps.flatMap Stretch.written) ∧
      ink "x ==  f('\\n',b)".toList = ink (ps.flatMap Stretch.kept) := by
  have ht : Text.OneLine " x == \\\n".toList := by decide
  have hahead : ∀ raw ∈ ["\\ \n".toList, "  f('\\n',\n".toList, "    b)\n".toList, "p\n".toList],
      Text.OneLine raw := by decide
  have hkeeps : Keeps " x == \\\n".toList
      ⟨["\\ \n".toList, "  f('\\n',\n".toList, "    b)\n".toList, "p\n".toList], 0⟩ :=
    expression_keeps ht hahead
  obtain ⟨pulled, ps, hpulled, hscan, hshown⟩ :=
    (hkeeps.reads "x ==  f('\\n',b)".toList ⟨["p\n".toList], 3⟩).1 (by decide +kernel)
  obtain ⟨hwritten, hkept⟩ := hkeeps.keeps pulled ps _ hpulled hscan
  rw [← hshown] at hkept
  exact ⟨ht, hahead, pulled, ps, hpulled, hscan, hwritten, hkept⟩

end Expression

end TerseMarkup
