import TerseMarkup.Proofs.Bytes
import TerseMarkup.Proofs.Verbatim

/-!
# Where spans end

Inside a span a doubled backtick is a literal one, and a single one closes the span. So all depends
on how long the runs of backticks are: one of even length is part of the markup, and the first one
of odd length closes the span, with its last backtick.

* `closeSpan?_eq_none_iff`: a span is not closed exactly if all runs have even length.
* `closeSpan?_doubleTicks` and `exists_of_closeSpan?`: reading a span undoes the doubling of
  backticks, and only that.
* `Span.read?_ends`: what is read of a span, in terms of runs.
* `renderSpans_append`: a text can be rendered in two parts. The cut must not be behind a backtick
  that goes with what follows it.
-/

namespace TerseMarkup

/-! ## Runs of backticks -/

namespace Text

/-- A run of backticks in the text that goes on neither to the front nor to the back. -/
structure TickRun (t before run after : Text) : Prop where
  split : t = before ++ run ++ after
  nonempty : run ≠ []
  ticks : ∀ c ∈ run, c = '\x60'
  front : before.getLast? ≠ some '\x60'
  back : after.head? ≠ some '\x60'

/-- All runs of backticks have even length. -/
def EvenRuns (t : Text) : Prop :=
  ∀ before run after, TickRun t before run after → run.length % 2 = 0

variable {t before run after : Text} {c : Char}

/-- A run stays a run if no backtick is put right in front of it. -/
theorem TickRun.cons (h : TickRun t before run after) (hc : before = [] → c ≠ '\x60') :
    TickRun (c :: t) (c :: before) run after := by
  refine ⟨by rw [h.split]; rfl, h.nonempty, h.ticks, ?_, h.back⟩
  cases before with
  | nil => simpa using hc rfl
  | cons b before =>
    rw [List.getLast?_cons_cons]
    exact h.front

/-- A run starts with the first character, or it is a run of the rest. -/
theorem TickRun.cons_cases (h : TickRun (c :: t) before run after) :
    (before = [] ∧ c = '\x60' ∧ ∃ more, run = c :: more ∧ t = more ++ after) ∨
      ∃ before', before = c :: before' ∧ TickRun t before' run after := by
  have hsplit := h.split
  cases before with
  | nil =>
    cases run with
    | nil => exact absurd rfl h.nonempty
    | cons d more =>
      rw [List.nil_append, List.cons_append] at hsplit
      obtain ⟨rfl, rfl⟩ := List.cons.inj hsplit
      exact .inl ⟨rfl, h.ticks c List.mem_cons_self, more, rfl, rfl⟩
  | cons b before =>
    rw [List.cons_append, List.cons_append] at hsplit
    obtain ⟨rfl, rfl⟩ := List.cons.inj hsplit
    refine .inr ⟨before, rfl, rfl, h.nonempty, h.ticks, ?_, h.back⟩
    intro hlast
    apply h.front
    rw [List.getLast?_cons, hlast]
    rfl

/-- The empty text has no odd run. -/
theorem evenRuns_nil : EvenRuns [] := by
  intro before run after h
  have hsplit := List.append_eq_nil_iff.1 h.split.symm
  exact absurd (List.append_eq_nil_iff.1 hsplit.1).2 h.nonempty

/-- A character other than a backtick makes no difference to the runs behind it. -/
theorem evenRuns_cons (hc : c ≠ '\x60') : EvenRuns (c :: t) ↔ EvenRuns t := by
  constructor
  · intro h before run after hrun
    exact h _ _ _ (hrun.cons fun _ => hc)
  · intro h before run after hrun
    rcases hrun.cons_cases with ⟨-, htick, -⟩ | ⟨before', -, hrun'⟩
    · exact absurd htick hc
    · exact h _ _ _ hrun'

/-- A pair of backticks does not change how the length of a run is divided by two. -/
theorem evenRuns_pair : EvenRuns ('\x60' :: '\x60' :: t) ↔ EvenRuns t := by
  constructor
  · intro h before run after hrun
    by_cases hbefore : before = []
    · -- The run goes on from the pair.
      subst hbefore
      have hlong : TickRun ('\x60' :: '\x60' :: t) [] ('\x60' :: '\x60' :: run) after := by
        refine ⟨by rw [hrun.split]; rfl, List.cons_ne_nil _ _, ?_, by simp, hrun.back⟩
        intro c hc
        rcases List.mem_cons.1 hc with rfl | hc
        · rfl
        rcases List.mem_cons.1 hc with rfl | hc
        · rfl
        · exact hrun.ticks c hc
      have heven := h _ _ _ hlong
      simp only [List.length_cons] at heven
      omega
    · have hpair := (hrun.cons (c := '\x60') (absurd · hbefore)).cons (c := '\x60') (by simp)
      exact h _ _ _ hpair
  · intro h before run after hrun
    rcases hrun.cons_cases with ⟨rfl, -, more, rfl, hmore⟩ | ⟨before', rfl, hrun'⟩
    · cases more with
      | nil => exact absurd (congrArg List.head? hmore.symm) hrun.back
      | cons d more =>
        rw [List.cons_append] at hmore
        obtain ⟨rfl, rfl⟩ := List.cons.inj hmore
        by_cases hnil : more = []
        · subst hnil
          rfl
        · have hrest : TickRun (more ++ after) [] more after :=
            ⟨rfl, hnil, fun c hc => hrun.ticks c (by simp [hc]), by simp, hrun.back⟩
          have heven := h _ _ _ hrest
          simp only [List.length_cons]
          omega
    · rcases hrun'.cons_cases with ⟨rfl, -⟩ | ⟨before'', rfl, hrun''⟩
      · exact absurd rfl hrun.front
      · exact h _ _ _ hrun''

/-- A backtick that no other follows is a run of length one. -/
theorem not_evenRuns_single (ht : t.head? ≠ some '\x60') : ¬ EvenRuns ('\x60' :: t) := by
  intro h
  have hrun : TickRun ('\x60' :: t) [] ['\x60'] t :=
    ⟨rfl, List.cons_ne_nil _ _, fun c hc => List.mem_singleton.1 hc, by simp, ht⟩
  exact absurd (h _ _ _ hrun) (by decide)

/-- Doubling backticks makes all runs even. -/
theorem evenRuns_doubleTicks (e : Text) : EvenRuns (doubleTicks e) := by
  induction e with
  | nil => exact evenRuns_nil
  | cons c e ih =>
    rw [doubleTicks_cons]
    split
    · rename_i hc
      subst hc
      exact evenRuns_pair.2 ih
    · rename_i hc
      exact (evenRuns_cons hc).2 ih

/-- Backticks are doubled part by part. -/
theorem doubleTicks_append (x y : Text) : doubleTicks (x ++ y) = doubleTicks x ++ doubleTicks y :=
  List.flatMap_append

/-- A run of backticks is doubled to one of twice its length. -/
theorem doubleTicks_replicate (k : Nat) :
    doubleTicks (List.replicate k '\x60') = List.replicate (2 * k) '\x60' := by
  induction k with
  | zero => rfl
  | succ k ih =>
    rw [List.replicate_succ, doubleTicks_cons, ih, if_pos rfl, Nat.mul_succ,
      List.replicate_succ, List.replicate_succ]
    rfl

/-- The backticks at the end of a text can be split off. -/
theorem exists_append_replicate (t : Text) :
    ∃ before k, t = before ++ List.replicate k '\x60' ∧ before.getLast? ≠ some '\x60' := by
  induction hlen : t.length generalizing t with
  | zero =>
    obtain rfl := List.length_eq_zero_iff.1 hlen
    exact ⟨[], 0, rfl, by simp⟩
  | succ n ih =>
    rcases List.eq_nil_or_concat t with rfl | ⟨u, c, rfl⟩
    · cases hlen
    rw [List.concat_eq_append] at hlen ⊢
    by_cases hc : c = '\x60'
    · obtain ⟨before, k, rfl, hlast⟩ := ih u (by simpa using hlen)
      refine ⟨before, k + 1, ?_, hlast⟩
      rw [hc, List.append_assoc, List.replicate_succ']
    · exact ⟨u ++ [c], 0, by simp, by simpa using hc⟩

end Text

open Text (TickRun EvenRuns doubleTicks doubleTicks_cons)

/-! ## The end of a span -/

/-- What a closing backtick takes with it of what follows: an underscore, if there is one. -/
def ClosesWith (mark rest : Text) : Prop :=
  mark = ['_'] ∨ mark = [] ∧ rest.head? ≠ some '\x60' ∧ rest.head? ≠ some '_'

section

variable {t markup written rest mark : Text}

/-- No backtick follows the closing one. -/
theorem ClosesWith.head?_ne (h : ClosesWith mark rest) : (mark ++ rest).head? ≠ some '\x60' := by
  rcases h with rfl | ⟨rfl, htick, -⟩
  · simp
  · exact htick

/-- What does not start with a backtick starts with what a closing one takes with it, which may be
nothing. -/
theorem exists_closesWith (h : rest.head? ≠ some '\x60') :
    ∃ mark after, rest = mark ++ after ∧ ClosesWith mark after := by
  by_cases hunder : rest.head? = some '_'
  · obtain ⟨after, rfl⟩ := List.head?_eq_some_iff.1 hunder
    exact ⟨['_'], after, rfl, .inl rfl⟩
  · exact ⟨[], rest, rfl, .inr ⟨rfl, h, hunder⟩⟩

/-- A span is not closed exactly if all runs of backticks have even length. -/
theorem closeSpan?_eq_none_iff : closeSpan? t = none ↔ EvenRuns t := by
  fun_induction closeSpan? t with
  | case1 => exact iff_of_true rfl Text.evenRuns_nil
  | case2 => exact iff_of_false (by simp) (Text.not_evenRuns_single (by simp))
  | case3 u ih => rw [Option.map_eq_none_iff, ih, Text.evenRuns_pair]
  | case4 u he => exact iff_of_false (by simp) (Text.not_evenRuns_single (by simp))
  | case5 e u he hu => exact iff_of_false (by simp) (Text.not_evenRuns_single (by simpa using he))
  | case6 c t hc ih => rw [Option.map_eq_none_iff, ih, Text.evenRuns_cons hc]

/-- Inside a span that is not closed, all backticks are doubled. -/
theorem exists_eq_doubleTicks (h : closeSpan? t = none) : ∃ e, t = doubleTicks e := by
  fun_induction closeSpan? t with
  | case1 => exact ⟨[], rfl⟩
  | case2 => cases h
  | case3 u ih =>
    obtain ⟨e, rfl⟩ := ih (Option.map_eq_none_iff.1 h)
    exact ⟨'\x60' :: e, by rw [doubleTicks_cons, if_pos rfl]; rfl⟩
  | case4 => cases h
  | case5 => cases h
  | case6 c t hc ih =>
    obtain ⟨e, rfl⟩ := ih (Option.map_eq_none_iff.1 h)
    exact ⟨c :: e, by rw [doubleTicks_cons, if_neg hc]; rfl⟩

/-- A span is its markup with the backticks doubled, up to the backtick that closes it. -/
theorem exists_of_closeSpan? (h : closeSpan? t = some (markup, written, rest)) :
    ∃ mark, ClosesWith mark rest ∧ written = doubleTicks markup ++ '\x60' :: mark := by
  fun_induction closeSpan? t generalizing markup written rest with
  | case1 => cases h
  | case2 =>
    cases h
    exact ⟨[], .inr ⟨rfl, by simp, by simp⟩, rfl⟩
  | case3 u ih =>
    obtain ⟨⟨m, w, r⟩, hm, hp⟩ := Option.map_eq_some_iff.1 h
    cases hp
    obtain ⟨mark, hmark, rfl⟩ := ih hm
    exact ⟨mark, hmark, by rw [doubleTicks_cons, if_pos rfl]; rfl⟩
  | case4 u he =>
    cases h
    exact ⟨['_'], .inl rfl, rfl⟩
  | case5 e u he hu =>
    cases h
    exact ⟨[], .inr ⟨rfl, by simpa using he, by simpa using hu⟩, rfl⟩
  | case6 c t hc ih =>
    obtain ⟨⟨m, w, r⟩, hm, hp⟩ := Option.map_eq_some_iff.1 h
    cases hp
    obtain ⟨mark, hmark, rfl⟩ := ih hm
    exact ⟨mark, hmark, by rw [doubleTicks_cons, if_neg hc]; rfl⟩

/-- Markup with its backticks doubled is read back, up to the backtick that closes it. -/
theorem closeSpan?_doubleTicks (e : Text) (h : ClosesWith mark rest) :
    closeSpan? (doubleTicks e ++ '\x60' :: (mark ++ rest)) =
      some (e, doubleTicks e ++ '\x60' :: mark, rest) := by
  induction e with
  | nil =>
    rcases h with rfl | ⟨rfl, htick, hunder⟩
    · rfl
    · cases rest with
      | nil => rfl
      | cons c rest =>
        have hc : c ≠ '\x60' ∧ c ≠ '_' := by simpa using And.intro htick hunder
        simp [doubleTicks, closeSpan?, hc]
  | cons c e ih =>
    rw [doubleTicks_cons]
    split
    · rename_i hc
      subst hc
      simp only [List.cons_append, List.nil_append, closeSpan?, if_true, ih, Option.map_some]
    · rename_i hc
      rw [List.singleton_append, List.cons_append, closeSpan?.eq_def]
      simp only [if_neg hc, ih, Option.map_some, List.cons_append]

/-- A span is closed by the first backtick that is not doubled, and takes an underscore with it. The
markup has single backticks for the doubled ones. -/
theorem closeSpan?_eq_some_iff : closeSpan? t = some (markup, written, rest) ↔
    ∃ mark, ClosesWith mark rest ∧ written = doubleTicks markup ++ '\x60' :: mark ∧
      t = written ++ rest := by
  constructor
  · intro h
    obtain ⟨mark, hmark, hwritten⟩ := exists_of_closeSpan? h
    exact ⟨mark, hmark, hwritten, eq_append_of_closeSpan? h⟩
  · rintro ⟨mark, hmark, rfl, rfl⟩
    rw [List.append_assoc, List.cons_append]
    exact closeSpan?_doubleTicks markup hmark

end

/-! ## Spans and runs -/

/-- The first run of backticks that has odd length. No backtick stands right in front of it, so that
the runs in front of it are those of `before`. -/
structure Text.FirstOdd (t before run after : Text) : Prop extends TickRun t before run after where
  odd : run.length % 2 = 1
  first : EvenRuns before

section

variable {t before run after : Text}

/-- Up to its last backtick but one, the first run of odd length is part of a doubled text. -/
theorem Text.FirstOdd.exists_doubleTicks (h : t.FirstOdd before run after) :
    ∃ e, before ++ run = doubleTicks e ++ ['\x60'] := by
  obtain ⟨e, he⟩ := exists_eq_doubleTicks (closeSpan?_eq_none_iff.2 h.first)
  have hrun : run = List.replicate run.length '\x60' := List.eq_replicate_of_mem h.ticks
  have hlength : run.length = 2 * (run.length / 2) + 1 := by
    have hodd := h.odd
    omega
  refine ⟨e ++ List.replicate (run.length / 2) '\x60', ?_⟩
  rw [Text.doubleTicks_append, Text.doubleTicks_replicate, ← he, List.append_assoc,
    ← List.replicate_succ', ← hlength, ← hrun]

/-- A single backtick behind a doubled text ends the first run of odd length. -/
theorem Text.exists_firstOdd (e : Text) (hafter : after.head? ≠ some '\x60') :
    ∃ before run, before ++ run = doubleTicks e ++ ['\x60'] ∧
      Text.FirstOdd (doubleTicks e ++ '\x60' :: after) before run after := by
  -- The run begins with the backticks that `e` ends with.
  obtain ⟨front, k, rfl, hlast⟩ := Text.exists_append_replicate e
  have hsplit : doubleTicks front ++ List.replicate (2 * k + 1) '\x60' =
      doubleTicks (front ++ List.replicate k '\x60') ++ ['\x60'] := by
    rw [Text.doubleTicks_append, Text.doubleTicks_replicate, List.append_assoc,
      List.replicate_succ']
  refine ⟨doubleTicks front, List.replicate (2 * k + 1) '\x60', hsplit, ?_⟩
  refine ⟨⟨?_, by simp, ?_, ?_, hafter⟩, ?_, Text.evenRuns_doubleTicks front⟩
  · rw [hsplit, List.append_assoc]
    rfl
  · intro c hc
    exact List.eq_of_mem_replicate hc
  · rw [Text.getLast?_doubleTicks]
    exact hlast
  · rw [List.length_replicate]
    omega

end

namespace Span

/-- What reading the span at the front of a text comes to. -/
structure Ends (content : Text) (n : Nat) : Prop where
  /-- There is no span exactly if no backtick stands in front. -/
  declines : read? content n = .ok none ↔ content.head? ≠ some '\x60'
  /-- Behind its first backtick, a span goes on to the end of the first run of odd length, and takes
  an underscore with it. All but the last backtick of these are doubled ones of the markup. -/
  closes : ∀ span rest, read? content n = .ok (some (span, rest)) ↔
    ∃ t before run mark, content = '\x60' :: t ∧ Text.FirstOdd t before run (mark ++ rest) ∧
      ClosesWith mark rest ∧ span.written = '\x60' :: (before ++ run ++ mark) ∧
      before ++ run = doubleTicks span.markup ++ ['\x60']
  /-- The first run of odd length, if there is one, does close the span. -/
  reaches : ∀ t before run after, content = '\x60' :: t → Text.FirstOdd t before run after →
    ∃ markup mark rest, after = mark ++ rest ∧ ClosesWith mark rest ∧
      read? content n = .ok (some (⟨markup, '\x60' :: (before ++ run ++ mark)⟩, rest))
  /-- Nothing is lost: the span as written is its markup with the backticks doubled, between the two
  that enclose it. -/
  keeps : ∀ span rest, read? content n = .ok (some (span, rest)) →
    content = span.written ++ rest ∧
      (span.written = '\x60' :: (doubleTicks span.markup ++ "\x60".toList) ∨
        span.written = '\x60' :: (doubleTicks span.markup ++ "\x60_".toList))
  /-- The rest is what is left behind as many bytes as the span has as it is written. -/
  cuts : ∀ span rest, read? content n = .ok (some (span, rest)) →
    content.dropBytes? span.written.byteSize = some rest
  /-- The span is a fault exactly if there is no run of odd length behind its first backtick. -/
  fails : ∀ e, read? content n = .error e ↔
    ∃ t, content = '\x60' :: t ∧ EvenRuns t ∧ e = unclosedSpan content n
  /-- Any text can be put into a span. -/
  restores : ∀ e rest, content = '\x60' :: (doubleTicks e ++ '\x60' :: rest) →
    rest.head? ≠ some '\x60' → rest.head? ≠ some '_' →
    read? content n = .ok (some (⟨e, '\x60' :: (doubleTicks e ++ ['\x60'])⟩, rest))

variable {content rest : Text} {n : Nat} {span : Span}

/-- There is no span at the front of a text, or it is not closed, or it is read up to its end. -/
theorem read?_cases (content : Text) (n : Nat) :
    (content.head? ≠ some '\x60' ∧ read? content n = .ok none) ∨
    ∃ t, content = '\x60' :: t ∧
      ((closeSpan? t = none ∧ read? content n = .error (unclosedSpan content n)) ∨
      ∃ markup written rest, closeSpan? t = some (markup, written, rest) ∧
        read? content n = .ok (some (⟨markup, '\x60' :: written⟩, rest))) := by
  cases content with
  | nil => exact .inl ⟨by simp, rfl⟩
  | cons c t =>
    by_cases hc : c = '\x60'
    · subst hc
      refine .inr ⟨t, rfl, ?_⟩
      cases hclose : closeSpan? t with
      | none => exact .inl ⟨rfl, by simp [read?, hclose]⟩
      | some found =>
        obtain ⟨markup, written, rest⟩ := found
        exact .inr ⟨markup, written, rest, rfl, by simp [read?, hclose]⟩
    · exact .inl ⟨by simpa using hc, by simp [read?, hc]⟩

/-- There is no span exactly where the text does not start with a backtick. -/
theorem read?_eq_none_iff : read? content n = .ok none ↔ content.head? ≠ some '\x60' := by
  rcases read?_cases content n with ⟨hhead, hread⟩ | ⟨t, rfl, ⟨-, hread⟩ | ⟨m, w, r, -, hread⟩⟩
  · exact iff_of_true hread hhead
  · simp [hread]
  · simp [hread]

/-- A span is a backtick and what is read behind it. -/
theorem read?_eq_some_iff : read? content n = .ok (some (span, rest)) ↔
    ∃ t written, content = '\x60' :: t ∧ span.written = '\x60' :: written ∧
      closeSpan? t = some (span.markup, written, rest) := by
  rcases read?_cases content n with
    ⟨hhead, hread⟩ | ⟨t, rfl, ⟨hclose, hread⟩ | ⟨m, w, r, hclose, hread⟩⟩
  · rw [hread]
    refine iff_of_false (by simp) ?_
    rintro ⟨t, written, rfl, -⟩
    exact hhead rfl
  · rw [hread]
    refine iff_of_false (by simp) ?_
    rintro ⟨t', written, ht, -, hclose'⟩
    rw [← (List.cons.inj ht).2, hclose] at hclose'
    cases hclose'
  · rw [hread]
    constructor
    · intro h
      cases h
      exact ⟨t, w, rfl, rfl, hclose⟩
    · rintro ⟨t', written, ht, hspan, hclose'⟩
      rw [← (List.cons.inj ht).2, hclose] at hclose'
      obtain ⟨markup, shown⟩ := span
      cases hclose'
      cases hspan
      rfl

/-- A span fails exactly if it is never closed. -/
theorem read?_eq_error_iff {e : Diagnostic} : read? content n = .error e ↔
    ∃ t, content = '\x60' :: t ∧ closeSpan? t = none ∧ e = unclosedSpan content n := by
  rcases read?_cases content n with
    ⟨hhead, hread⟩ | ⟨t, rfl, ⟨hclose, hread⟩ | ⟨m, w, r, hclose, hread⟩⟩
  · rw [hread]
    refine iff_of_false (by simp) ?_
    rintro ⟨t, rfl, -⟩
    exact hhead rfl
  · simp [hread, hclose, eq_comm]
  · simp [hread, hclose]

/-- A span ends with the first odd run of backticks behind its opening one. -/
theorem read?_eq_some_iff_firstOdd : read? content n = .ok (some (span, rest)) ↔
    ∃ t before run mark, content = '\x60' :: t ∧ Text.FirstOdd t before run (mark ++ rest) ∧
      ClosesWith mark rest ∧ span.written = '\x60' :: (before ++ run ++ mark) ∧
      before ++ run = doubleTicks span.markup ++ ['\x60'] := by
  rw [read?_eq_some_iff]
  constructor
  · rintro ⟨t, written, rfl, hspan, hclose⟩
    obtain ⟨mark, hmark, rfl, rfl⟩ := closeSpan?_eq_some_iff.1 hclose
    obtain ⟨before, run, hrun, hodd⟩ := Text.exists_firstOdd span.markup hmark.head?_ne
    refine ⟨_, before, run, mark, rfl, ?_, hmark, ?_, hrun⟩
    · rw [List.append_assoc]
      exact hodd
    · rw [hspan, hrun, List.append_assoc]
      rfl
  · rintro ⟨t, before, run, mark, rfl, hodd, hmark, hspan, hrun⟩
    refine ⟨t, before ++ run ++ mark, rfl, hspan, ?_⟩
    have hwritten : before ++ run ++ mark = doubleTicks span.markup ++ '\x60' :: mark := by
      rw [hrun, List.append_assoc]
      rfl
    refine closeSpan?_eq_some_iff.2 ⟨mark, hmark, hwritten, ?_⟩
    rw [hodd.split, ← List.append_assoc]

/-- A span as written and the rest make up the text. -/
theorem eq_append_of_read? (h : read? content n = .ok (some (span, rest))) :
    content = span.written ++ rest := by
  obtain ⟨t, written, rfl, hspan, hclose⟩ := read?_eq_some_iff.1 h
  rw [hspan, eq_append_of_closeSpan? hclose]
  rfl

/-- A span ends with the first run of backticks of odd length. -/
theorem read?_ends (content : Text) (n : Nat) : Ends content n where
  declines := read?_eq_none_iff
  closes _ _ := read?_eq_some_iff_firstOdd
  reaches t before run after hcontent hodd := by
    obtain ⟨mark, rest, rfl, hmark⟩ := exists_closesWith hodd.back
    obtain ⟨markup, hmarkup⟩ := hodd.exists_doubleTicks
    refine ⟨markup, mark, rest, rfl, hmark, ?_⟩
    exact read?_eq_some_iff_firstOdd.2 ⟨t, before, run, mark, hcontent, hodd, hmark, rfl, hmarkup⟩
  keeps span rest h := by
    refine ⟨eq_append_of_read? h, ?_⟩
    obtain ⟨t, written, rfl, hspan, hclose⟩ := read?_eq_some_iff.1 h
    obtain ⟨mark, hmark, rfl, rfl⟩ := closeSpan?_eq_some_iff.1 hclose
    rcases hmark with rfl | ⟨rfl, -⟩
    · exact .inr hspan
    · exact .inl hspan
  cuts span rest h := Text.dropBytes?_eq_some_iff.2 ⟨span.written, eq_append_of_read? h, rfl⟩
  fails e := by
    rw [read?_eq_error_iff]
    simp only [closeSpan?_eq_none_iff]
  restores e rest hcontent htick hunder := by
    have hmark : ClosesWith [] rest := .inr ⟨rfl, htick, hunder⟩
    exact read?_eq_some_iff.2 ⟨_, _, hcontent, rfl, closeSpan?_doubleTicks e hmark⟩

end Span

/-! ## Rendering in two parts -/

section

variable {compile : Text → Except Diagnostic Text} {A B : Text}

/-- A text may be cut between `A` and `B`. Behind a backtick it may only be cut if that does not go
with what follows. -/
def Cut (A B : Text) : Prop :=
  A.getLast? ≠ some '\x60' ∨ B.head? ≠ some '\x60' ∧ B.head? ≠ some '_'

/-- A text may be cut where its end may be. -/
theorem Cut.of_append {x y : Text} (h : Cut (x ++ y) B) : Cut y B := by
  refine h.imp_left fun hne hlast => hne ?_
  rw [List.getLast?_append, hlast]
  rfl

/-- The spans in front of a cut stay as they are. -/
theorem closeSpan?_append {t markup written rest : Text}
    (h : closeSpan? t = some (markup, written, rest)) (hcut : Cut t B) :
    closeSpan? (t ++ B) = some (markup, written, rest ++ B) := by
  obtain ⟨mark, hmark, hwritten, rfl⟩ := closeSpan?_eq_some_iff.1 h
  refine closeSpan?_eq_some_iff.2 ⟨mark, ?_, hwritten, List.append_assoc _ _ _⟩
  rcases hmark with rfl | ⟨rfl, htick, hunder⟩
  · exact .inl rfl
  · refine .inr ⟨rfl, ?_⟩
    cases rest with
    | nil =>
      -- The text ends with the backtick that closes the span.
      have hlast : (written ++ []).getLast? = some '\x60' := by
        rw [List.append_nil, hwritten, List.getLast?_concat]
      exact hcut.resolve_left (not_not_intro hlast)
    | cons c rest => exact ⟨htick, hunder⟩

/-- A text may be cut behind a span, if it may be cut at its end. -/
theorem Cut.of_closeSpan? {t markup written rest : Text} (hcut : Cut ('\x60' :: t) B)
    (h : closeSpan? t = some (markup, written, rest)) : Cut rest B := by
  have hcut' : Cut t B := hcut.of_append (x := ['\x60'])
  rw [eq_append_of_closeSpan? h] at hcut'
  exact hcut'.of_append

/-- The lines of a text are those of its first span and those of the rest. -/
theorem add_count_span {t markup written rest : Text}
    (h : closeSpan? t = some (markup, written, rest)) (n : Nat) :
    n + written.count '\n' + rest.count '\n' = n + ('\x60' :: t).count '\n' := by
  rw [List.count_cons_of_ne (by decide), eq_append_of_closeSpan? h, List.count_append,
    Nat.add_assoc]

/-- Texts can be put in front one by one. -/
theorem map_append_map_append (r : Except Diagnostic Text) (a b : Text) :
    (r.map (b ++ ·)).map (a ++ ·) = r.map (a ++ b ++ ·) := by
  cases r with
  | error e => rfl
  | ok t => exact congrArg Except.ok (List.append_assoc a b t).symm

/-- A text is rendered in two parts, one after the other. The line numbers of the second part go on
from those of the first. -/
theorem renderSpans_append {n : Nat} {a : Text} (h : renderSpans compile n A = .ok a)
    (hcut : A.getLast? ≠ some '\x60' ∨ B.head? ≠ some '\x60' ∧ B.head? ≠ some '_') :
    renderSpans compile n (A ++ B) =
      (renderSpans compile (n + A.count '\n') B).map (a ++ ·) := by
  replace hcut : Cut A B := hcut
  revert a
  fun_induction renderSpans compile n A with
  | case1 n =>
    intro a h
    cases h
    show renderSpans compile n B = (renderSpans compile n B).map fun t => t
    cases renderSpans compile n B <;> rfl
  | case2 n =>
    intro a h
    cases h
  | case3 n u ih =>
    intro a h
    obtain ⟨v, hv, rfl⟩ := exists_of_map_eq_ok h
    rw [List.cons_append, List.cons_append, renderSpans]
    simp only [if_true, ih (hcut.of_append (x := ['\x60', '\x60'])) hv]
    exact map_append_map_append _ ['\x60'] v
  | case4 n e u he hs =>
    intro a h
    cases h
  | case5 n e u he markup written rest hs after hnil ih =>
    intro a h
    have hs' := closeSpan?_append hs (hcut.of_append (x := ['\x60']))
    rw [List.cons_append, List.cons_append, renderSpans_span compile n (u := u ++ B) he hs',
      if_pos hnil, ← add_count_span hs]
    exact ih (hcut.of_closeSpan? hs) h
  | case6 n e u he markup written rest hs after hnil out hc ih =>
    intro a h
    obtain ⟨v, hv, rfl⟩ := exists_of_map_eq_ok h
    have hs' := closeSpan?_append hs (hcut.of_append (x := ['\x60']))
    rw [List.cons_append, List.cons_append, renderSpans_span compile n (u := u ++ B) he hs',
      if_neg hnil, hc, ← add_count_span hs]
    exact (congrArg _ (ih (hcut.of_closeSpan? hs) hv)).trans (map_append_map_append _ out v)
  | case7 n e u he markup written rest hs after hnil line body hc ih =>
    intro a h
    obtain ⟨v, hv, rfl⟩ := exists_of_map_eq_ok h
    have hs' := closeSpan?_append hs (hcut.of_append (x := ['\x60']))
    rw [List.cons_append, List.cons_append, renderSpans_span compile n (u := u ++ B) he hs',
      if_neg hnil, hc, ← add_count_span hs]
    exact (congrArg _ (ih (hcut.of_closeSpan? hs) hv)).trans
      (map_append_map_append _ ('\x60' :: written) v)
  | case8 n e u he markup written rest hs hnil d hd hc =>
    intro a h
    cases h
  | case9 n c t hc ih =>
    intro a h
    obtain ⟨v, hv, rfl⟩ := exists_of_map_eq_ok h
    rw [List.cons_append, renderSpans_cons compile n _ hc, ← add_count_cons]
    exact (congrArg _ (ih (hcut.of_append (x := [c])) hv)).trans (map_append_map_append _ [c] v)

/-- A fault in the second part is reported at the line that it has in the whole text. -/
theorem renderSpans_append_fault :
    renderSpans ((Profile.mako id).compileEmbedded 3 3) 4 "a\n\x60!b\x60".toList =
        .ok "a\n\x60!b\x60".toList ∧
      (" \x60p#a id=b\x60".toList.head? ≠ some '\x60' ∧
        " \x60p#a id=b\x60".toList.head? ≠ some '_') ∧
      renderSpans ((Profile.mako id).compileEmbedded 3 3) 4
          ("a\n\x60!b\x60".toList ++ " \x60p#a id=b\x60".toList) =
        .error (secondId "p#a id=b".toList 5) := by
  have hfirst : renderSpans ((Profile.mako id).compileEmbedded 3 3) 4 "a\n\x60!b\x60".toList =
      .ok "a\n\x60!b\x60".toList := by
    decide +kernel
  have hcut : " \x60p#a id=b\x60".toList.head? ≠ some '\x60' ∧
      " \x60p#a id=b\x60".toList.head? ≠ some '_' := by
    decide
  refine ⟨hfirst, hcut, (renderSpans_append hfirst (.inr hcut)).trans ?_⟩
  decide +kernel

end

end TerseMarkup
