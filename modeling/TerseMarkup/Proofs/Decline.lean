import TerseMarkup.Proofs.Balance
import TerseMarkup.Proofs.Comparison

/-!
# Readers that find nothing

A reader that finds nothing leaves the text to its caller, so it should leave the cursor where it
was: a line that it has pulled by then is lost. Groups, tokens and mappings keep to this, whatever
the delimiters are. A mapping may be given up after its expression has been read, but only if that
is empty, and a group that reaches into another line is never blank (`Nesting.Reads.solid`): the
line it ends in is pulled without its indentation.

An attribute is given up as well if its name has no value and is no switch. The cursor then stays
where the name has left it, which is behind the lines that brackets in the name have pulled.

* `atoms_solid`: what is read over several lines is not blank.
* `attribute?_eq_none_iff`: the two ways in which there is no attribute.
* `declined_readers`: where each of the readers leaves the cursor if it finds nothing.
* `attribute?_loses_line`: the rest of a sentence can be lost in this way.
-/

namespace TerseMarkup

open Piece (texts)

/-! ## What is read over several lines -/

/-- The first character of a text is that of its first part. -/
theorem Text.head?_of_append {t x y : Text} {c : Char} (heq : t = x ++ y) (hne : x ≠ [])
    (hc : t.head? = some c) : x.head? = some c := by
  cases x with
  | nil => exact absurd rfl hne
  | cons a x =>
    rw [heq] at hc
    exact hc

namespace Nesting

variable {n : Nesting} {t rest : Text} {pulled : List Text} {ps : List Piece} {cur cur' : Cursor}

/-- The first piece of a text begins with the character that the text begins with. -/
theorem head?_of_first? {p : Piece} {c : Char} (h : n.first? t = some (p, rest))
    (hc : t.head? = some c) : p.text.head? = some c := by
  have heq := eq_append_of_first? h
  refine Text.head?_of_append heq ?_ hc
  intro hnil
  have hlt := first?_progress h
  rw [heq, hnil] at hlt
  exact Nat.lt_irrefl _ hlt

/-- Pieces that start with something other than a blank are not blank. -/
theorem Reads.solid_of_head? {c : Char} (h : n.Reads t [] ps rest) (hc : t.head? = some c)
    (hblank : isBlank c = false) : (texts ps).Solid := by
  cases h with
  | last h => exact (Text.solid_of_head? (head?_of_first? h hc) hblank).append _
  | more h _ => exact (Text.solid_of_head? (head?_of_first? h hc) hblank).append _

/-- Pieces that reach into another line are not all blank: the line they end in is pulled without
its indentation. -/
theorem Reads.solid (h : n.Reads t pulled ps rest) (hne : pulled ≠ []) : (texts ps).Solid := by
  induction h with
  | last => exact absurd rfl hne
  | more _ _ ih => exact (ih hne).prepend _
  | @pull t raw rest pulled ps _ hs ih =>
    by_cases hnil : pulled = []
    · subst hnil
      cases hraw : raw.trimStart with
      | nil =>
        rw [hraw] at hs
        cases hs with
        | last h => exact absurd (first?_progress h) (Nat.not_lt_zero _)
        | more h _ => exact absurd (first?_progress h) (Nat.not_lt_zero _)
      | cons c u =>
        have hhead : raw.trimStart.head? = some c := by rw [hraw]; rfl
        exact hs.solid_of_head? hhead (Text.isBlank_head?_trimStart hhead)
    · exact ih hnil

/-- A group that reaches into another line is not blank. -/
theorem solid_of_group? {g : Text} (h : n.group? t cur = (.ok (some (g, rest)), cur')) :
    cur' = cur ∨ g.Solid := by
  obtain ⟨pulled, hpulled, start, depth, after, ps, -, -, hreads, -, rfl⟩ := group?_eq_some_iff.1 h
  by_cases hnil : pulled = []
  · subst hnil
    exact .inl hpulled.eq_of_nil
  · exact .inr ((hreads.solid hnil).prepend start)

end Nesting

variable {n : Nesting} {stops : List Text} {lead t rest : Text} {cur cur' : Cursor}

/-- An atom that reaches into another line is not blank: only groups do. -/
theorem atom_solid {n : Option Nesting} {c : Char} {a : Text}
    (h : atom n c t cur = (.ok (a, rest), cur')) : cur' = cur ∨ a.Solid := by
  rcases atom_cases h with hg | ⟨-, ⟨-, rfl⟩ | ⟨-, hg | ⟨-, -, -, rfl⟩⟩⟩
  · cases n with
    | none => cases hg
    | some n => exact Nesting.solid_of_group? hg
  · exact .inl rfl
  · exact Nesting.solid_of_group? hg
  · exact .inl rfl

/-- Atoms that reach into another line are not all blank. -/
theorem atoms_solid {read : Text} (h : atoms n stops t cur = (.ok (read, rest), cur')) :
    cur' = cur ∨ read.Solid := by
  fun_induction atoms n stops t cur generalizing read rest cur' with
  | case1 | case2 =>
    cases h
    exact .inl rfl
  | case3 | case4 => cases h
  | case5 cur c t hstop a rest₁ cur₁ hatom more rest₂ cur₂ hmore ih =>
    cases h
    rcases ih hmore with rfl | hsolid
    · exact (atom_solid hatom).imp id fun hsolid => hsolid.append more
    · exact .inr (hsolid.prepend a)

/-- An empty token has not pulled a line. -/
theorem eq_of_token?_eq_nil (h : token? n [] stops t cur = (.ok (some ([], rest)), cur')) :
    cur' = cur := by
  unfold token? at h
  split at h
  · cases h
  · split at h
    · cases h
    · split at h
      · cases h
      · rename_i read rest₁ cur₁ hatoms
        simp only [List.nil_append, Prod.mk.injEq, Except.ok.injEq, Option.some.injEq] at h
        obtain ⟨⟨hnil, -⟩, rfl⟩ := h
        rcases atoms_solid hatoms with rfl | hsolid
        · rfl
        · obtain ⟨c, hc, -⟩ := hsolid.trimEnd
          rw [hnil] at hc
          cases hc

/-! ## Where there is nothing -/

/-- There is no token in an empty text, and none where its lead is missing. -/
theorem token?_eq_none_iff : token? n lead stops t cur = (.ok none, cur') ↔
    cur' = cur ∧ (t = [] ∨ ¬ lead <+: t) := by
  unfold token?
  split
  · rename_i hempty
    simp [List.isEmpty_iff.1 hempty, eq_comm]
  · rename_i hempty
    split
    · rename_i hafter
      have hlead : ¬ lead <+: t := by
        rintro ⟨u, rfl⟩
        rw [Text.after?_eq_some_iff.2 rfl] at hafter
        cases hafter
      simp [hlead, eq_comm]
    · rename_i u hafter
      have hlead : lead <+: t := ⟨u, (Text.after?_eq_some_iff.1 hafter).symm⟩
      have hne : t ≠ [] := mt List.isEmpty_iff.2 hempty
      split <;> simp [hlead, hne]

/-- There is no mapping without the asterisks, and none without an expression behind them. -/
theorem eq_of_splat?_eq_none {d : Delimiters} {parens : Bool}
    (h : splat? d parens t cur = (.ok none, cur')) : cur' = cur := by
  unfold splat? at h
  split at h
  · cases h
    rfl
  · split at h
    · cases h
    · rename_i htoken
      cases h
      exact (token?_eq_none_iff.1 htoken).1
    · rename_i mapping rest₁ cur₁ htoken
      split at h
      · rename_i hempty
        cases h
        rw [List.isEmpty_iff.1 hempty] at htoken
        exact eq_of_token?_eq_nil htoken
      · cases h

/-- An equals sign has a value behind it, unless it is the last of the line. -/
theorem assignment?_eq_none_iff {d : Delimiters} {parens : Bool} {name : Text} :
    assignment? d parens name t cur = (.ok none, cur') ↔ t = [] ∧ cur' = cur := by
  constructor
  · intro h
    unfold assignment? at h
    split at h
    · cases h
    · split at h
      · cases h
      · split at h
        · cases h
        · rename_i htoken
          cases h
          obtain ⟨rfl, hnil | hlead⟩ := token?_eq_none_iff.1 htoken
          · exact ⟨hnil, rfl⟩
          · exact absurd List.nil_prefix hlead
        · simp only at h
          split at h <;> cases h
  · rintro ⟨rfl, rfl⟩
    rfl

/-- Nothing follows a character that is not the first of the text. -/
theorem Text.after?_singleton_eq_none_iff {c : Char} :
    Text.after? [c] rest = none ↔ rest.head? ≠ some c := by
  cases rest with
  | nil => simp [Text.after?]
  | cons b u => by_cases hb : b = c <;> simp [Text.after?, hb, eq_comm]

/-- There is no attribute without a name, and none if the name has no value and is no switch. In the
second case the cursor is where the name has left it. -/
theorem attribute?_eq_none_iff {d : Delimiters} {parens : Bool} {line : Text} :
    attribute? d parens line cur = (.ok none, cur') ↔
      cur' = cur ∧ (line = [] ∨ ∃ rest,
        token? d.placeholder [] (nameStops parens) line cur = (.ok (some ([], rest)), cur)) ∨
      ∃ name rest, name ≠ [] ∧
        token? d.placeholder [] (nameStops parens) line cur = (.ok (some (name, rest)), cur') ∧
        (rest = ['='] ∨ rest.head? ≠ some '=' ∧ isSwitch parens rest = false) := by
  constructor
  · intro h
    unfold attribute? at h
    split at h
    · cases h
    · rename_i htoken
      cases h
      obtain ⟨rfl, hnil | hlead⟩ := token?_eq_none_iff.1 htoken
      · exact .inl ⟨rfl, .inl hnil⟩
      · exact absurd List.nil_prefix hlead
    · rename_i name rest cur₁ htoken
      split at h
      · rename_i hempty
        cases h
        rw [List.isEmpty_iff.1 hempty] at htoken
        obtain rfl := eq_of_token?_eq_nil htoken
        exact .inl ⟨rfl, .inr ⟨rest, htoken⟩⟩
      · rename_i hempty
        have hne : name ≠ [] := mt List.isEmpty_iff.2 hempty
        split at h
        · rename_i t hafter
          obtain ⟨rfl, rfl⟩ := assignment?_eq_none_iff.1 h
          exact .inr ⟨name, rest, hne, htoken, .inl (Text.after?_eq_some_iff.1 hafter)⟩
        · rename_i hafter
          split at h
          · cases h
          · rename_i hswitch
            cases h
            exact .inr ⟨name, rest, hne, htoken,
              .inr ⟨Text.after?_singleton_eq_none_iff.1 hafter, eq_false_of_ne_true hswitch⟩⟩
  · rintro (⟨rfl, rfl | ⟨rest, htoken⟩⟩ | ⟨name, rest, hne, htoken, rfl | ⟨hhead, hswitch⟩⟩)
    · rfl
    · simp [attribute?, htoken]
    · have hassign : assignment? d parens name [] cur' = (.ok none, cur') :=
        assignment?_eq_none_iff.2 ⟨rfl, rfl⟩
      simp [attribute?, htoken, hne, Text.after?, hassign]
    · simp [attribute?, htoken, hne, Text.after?_singleton_eq_none_iff.2 hhead, hswitch]

/-! ## The readers -/

/-- A reader that finds nothing leaves the cursor where it was, whatever the delimiters are, with
one exception: an attribute whose name has no value and is no switch leaves it where the name
ends. -/
theorem declined_readers (d : Delimiters) (parens : Bool) (line : Text) (cur cur' : Cursor) :
    (∀ n : Nesting, n.group? line cur = (.ok none, cur') → cur' = cur) ∧
    (∀ n lead stops, token? n lead stops line cur = (.ok none, cur') → cur' = cur) ∧
    (splat? d parens line cur = (.ok none, cur') → cur' = cur) ∧
    (attribute? d parens line cur = (.ok none, cur') ↔
      cur' = cur ∧ (line = [] ∨ ∃ rest,
        token? d.placeholder [] (nameStops parens) line cur = (.ok (some ([], rest)), cur)) ∨
      ∃ name rest, name ≠ [] ∧
        token? d.placeholder [] (nameStops parens) line cur = (.ok (some (name, rest)), cur') ∧
        (rest = ['='] ∨ rest.head? ≠ some '=' ∧ isSwitch parens rest = false)) := by
  refine ⟨?_, ?_, eq_of_splat?_eq_none, attribute?_eq_none_iff⟩
  · intro n h
    exact Nesting.eq_of_group?_eq_none h
  · intro n lead stops h
    exact (token?_eq_none_iff.1 h).1

/-- A name with an open bracket takes the next line with it, and there is no attribute. -/
theorem declined_readers_open_bracket :
    token? Delimiters.mako.placeholder [] (nameStops false) "foo(a".toList
        ⟨["b) text\n".toList, "rest\n".toList], 0⟩ =
      (.ok (some ("foo(ab)".toList, " text\n".toList)), ⟨["rest\n".toList], 1⟩) ∧
    attribute? .mako false "foo(a".toList ⟨["b) text\n".toList, "rest\n".toList], 0⟩ =
      (.ok none, ⟨["rest\n".toList], 1⟩) := by
  have htoken : token? Delimiters.mako.placeholder [] (nameStops false) "foo(a".toList
        ⟨["b) text\n".toList, "rest\n".toList], 0⟩ =
      (.ok (some ("foo(ab)".toList, " text\n".toList)), ⟨["rest\n".toList], 1⟩) := by
    decide +kernel
  refine ⟨htoken, (declined_readers _ _ _ _ _).2.2.2.2 (.inr ⟨_, _, ?_, htoken, .inr ?_⟩)⟩
  · decide
  · decide

/-- The rest of a sentence with an open bracket is lost, although the sentence itself is kept. -/
theorem attribute?_loses_line :
    (∃ cur', attribute? .mako false "foo(a".toList ⟨["b) text\n".toList, "rest\n".toList], 0⟩ =
        (.ok none, cur') ∧ cur' ≠ ⟨["b) text\n".toList, "rest\n".toList], 0⟩) ∧
    (Profile.mako id).compile ⟨false, 64⟩ "p foo(a\nb) text\n".toList =
      .ok "<p>foo(a</p>".toList := by
  refine ⟨⟨⟨["rest\n".toList], 1⟩, ?_, ?_⟩, ?_⟩
  · decide +kernel
  · decide
  · decide +kernel

end TerseMarkup
