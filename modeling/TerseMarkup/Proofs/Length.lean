import TerseMarkup.Headline.Opening
import TerseMarkup.Proofs.Reading

/-!
# How long what is read can get

A reader that pulls no line copies: what it reads and what it leaves make up the text. A reader that
pulls lines drops at least one character for each of them, since the end of a line is not copied. So
a text read is never longer than what it was read from (`expression_le`), although continuations put
spaces into it, and the rest of a statement is shorter than the statement
(`splitStatement_lt`, `restAfterColon_lt`).
-/

namespace TerseMarkup

/-! ## Groups and atoms -/

/-- What is read off `t` at `cur`, with the rest, either is `t` and nothing was pulled, or is less
than there was. -/
def Conserves (t : Text) (cur : Cursor) (read rest : Text) (cur' : Cursor) : Prop :=
  cur' = cur ∧ read ++ rest = t ∨
    cur'.size + (read.length + rest.length) < cur.size + t.length

/-- What is read and what is left are no more than there was. -/
theorem Conserves.le {t read rest : Text} {cur cur' : Cursor}
    (h : Conserves t cur read rest cur') :
    cur'.size + (read.length + rest.length) ≤ cur.size + t.length := by
  rcases h with ⟨rfl, rfl⟩ | h
  · refine Nat.le_of_eq ?_
    rw [List.length_append]
  · exact Nat.le_of_lt h

/-- A group and what follows it are no more than there was. -/
theorem Nesting.close_conserves {n : Nesting} {depth : Nat} {read tail g rest : Text}
    {cur cur' : Cursor} (h : n.close depth read tail cur = (.ok (g, rest), cur')) :
    Conserves (read ++ tail) cur g rest cur' := by
  fun_induction n.close depth read tail cur with
  | case1 depth read tail cur mark r hm ih =>
    have := ih h
    rwa [List.append_assoc, ← eq_append_of_mark? hm] at this
  | case2 depth read tail cur mark r hm hd =>
    cases h
    left
    rw [List.append_assoc, ← eq_append_of_mark? hm]
    exact ⟨rfl, rfl⟩
  | case3 depth read tail cur mark r hm hd ih =>
    have := ih h
    rwa [List.append_assoc, ← eq_append_of_mark? hm] at this
  | case4 => simp at h
  | case5 depth read tail cur hm hend raw cur₁ hn ih =>
    -- The end of the line is dropped, so the pull alone makes the difference.
    have hle := (ih h).le
    have := Cursor.size_of_next? hn
    have := Text.length_trimStart_le raw
    right
    rw [List.length_append] at *
    omega
  | case6 depth read tail cur hm hend literal r hq ih =>
    have := ih h
    rwa [List.append_assoc, ← Text.eq_append_of_quoted? hq] at this
  | case7 => simp at h
  | case8 depth read cur c r hm hend hq ih =>
    have := ih h
    rwa [List.append_assoc] at this

/-- The group at the front of a text and what follows it are no more than there was. -/
theorem Nesting.group?_conserves {n : Nesting} {t g rest : Text} {cur cur' : Cursor}
    (h : n.group? t cur = (.ok (some (g, rest)), cur')) : Conserves t cur g rest cur' := by
  unfold group? at h
  split at h
  · simp at h
  · rename_i start after depth ho
    split at h
    · rename_i found cur'' hc
      simp only [Prod.mk.injEq, Except.ok.injEq, Option.some.injEq] at h
      obtain ⟨rfl, rfl⟩ := h
      rw [eq_append_of_opening? ho]
      exact close_conserves hc
    · simp at h

/-- An atom and what follows it are no more than there was. -/
theorem atom_conserves {n : Option Nesting} {c : Char} {t a rest : Text} {cur cur' : Cursor}
    (h : atom n c t cur = (.ok (a, rest), cur')) : Conserves (c :: t) cur a rest cur' := by
  rcases atom_cases h with hg | ⟨-, ⟨hq, rfl⟩ | ⟨-, hg | ⟨-, rfl, rfl, rfl⟩⟩⟩
  · cases n with
    | none => simp [groupOf?] at hg
    | some n => exact Nesting.group?_conserves hg
  · exact .inl ⟨rfl, (Text.eq_append_of_quoted? hq).symm⟩
  · exact Nesting.group?_conserves hg
  · exact .inl ⟨rfl, rfl⟩

/-! ## Continuations -/

/-- A text that is a continuation is not empty. -/
theorem ne_nil_of_isBreak {t : Text} (h : isBreak t = true) : t ≠ [] := by
  rintro rfl
  cases h

/-- Without a continuation nothing happens. -/
theorem followBreaks_of_not_isBreak {t : Text} (h : isBreak t = false) (cur : Cursor) :
    followBreaks t cur = (false, t, cur) := by
  obtain ⟨ahead, n⟩ := cur
  unfold followBreaks
  cases ahead <;> simp [followBreaksOver, h]

/-- Continuations are found exactly where the text is one. -/
theorem isBreak_of_followBreaks {tail t : Text} {cur cur' : Cursor} {found : Bool}
    (h : followBreaks tail cur = (found, t, cur')) : isBreak tail = found := by
  cases hb : isBreak tail with
  | false =>
    rw [followBreaks_of_not_isBreak hb] at h
    cases h
    rfl
  | true =>
    obtain ⟨ahead, n⟩ := cur
    unfold followBreaks at h
    cases ahead <;> simp only [followBreaksOver, hb, if_true, Prod.mk.injEq] at h <;> exact h.1

/-- A backslash that the end of its line follows is more than one character. -/
theorem two_le_length_of_isBreak {t : Text} (h : isBreak t = true)
    (hlast : t.getLast? = some '\n') : 2 ≤ t.length := by
  match t with
  | [] => cases h
  | [c] =>
    cases hlast
    cases h
  | _ :: _ :: t =>
    simp only [List.length_cons]
    omega

/-- A continuation leaves room for the space that it reads as, and for one character more unless it
is a backslash with nothing at all behind it. -/
theorem followBreaks_lt {tail t : Text} {cur cur' : Cursor}
    (h : followBreaks tail cur = (true, t, cur')) :
    cur'.size + t.length + min tail.length 2 ≤ cur.size + tail.length := by
  have hbreak := isBreak_of_followBreaks h
  obtain ⟨ahead, n⟩ := cur
  unfold followBreaks at h
  have hpos : 0 < tail.length := List.length_pos_iff.2 (ne_nil_of_isBreak hbreak)
  cases ahead with
  | nil =>
    simp only [followBreaksOver, hbreak, if_true, Prod.mk.injEq, true_and] at h
    obtain ⟨rfl, rfl⟩ := h
    simp only [Cursor.size_nil, List.length_nil]
    omega
  | cons raw ahead =>
    simp only [followBreaksOver, hbreak, if_true, Prod.mk.injEq, true_and] at h
    have hle := (followBreaksOver_le raw.trimStart ahead (n + 1)).2
    rw [h] at hle
    have := Text.length_trimStart_le raw
    rw [Cursor.size_cons raw ahead n (n + 1)]
    simp only at hle
    omega

/-! ## Expressions -/

theorem length_breakText_false : (breakText false).length = 0 := rfl

theorem length_breakText_true : (breakText true).length = 1 := rfl

/-- What is read as an expression is no longer than what it was read from, and shorter if the text
ended in a line feed that it does not end in. -/
theorem expressionAtoms_le {tail read : Text} {cur cur' : Cursor}
    (h : expressionAtoms tail cur = (.ok read, cur')) :
    cur'.size + read.length ≤ cur.size + tail.length ∧
      (tail.getLast? = some '\n' →
        cur'.size + read.length < cur.size + tail.length ∨ read.getLast? = some '\n') := by
  fun_induction expressionAtoms tail cur generalizing read cur' with
  | case1 tail cur hnil =>
    cases h
    rw [List.isEmpty_iff.1 hnil]
    exact ⟨Nat.le_refl _, fun hlast => by cases hlast⟩
  | case2 tail cur hne found cur₁ hs =>
    cases h
    cases found with
    | false =>
      -- Without a continuation the text at hand is still the whole text, which is not empty.
      rw [followBreaks_of_not_isBreak (isBreak_of_followBreaks hs)] at hs
      cases hs
      simp at hne
    | true =>
      have hlt := followBreaks_lt hs
      have hpos : 0 < tail.length := List.length_pos_iff.2 (by simpa using hne)
      rw [length_breakText_true]
      simp only [List.length_nil, Nat.add_zero] at hlt
      refine ⟨by omega, fun hlast => .inl ?_⟩
      have : 2 ≤ tail.length := two_le_length_of_isBreak (isBreak_of_followBreaks hs) hlast
      omega
  | case3 => simp at h
  | case4 => simp at h
  | case5 tail cur hne found c t cur₁ hs a rest cur₂ ha more cur₃ hm ih =>
    simp only [Prod.mk.injEq, Except.ok.injEq] at h
    obtain ⟨rfl, rfl⟩ := h
    obtain ⟨hle, hlt⟩ := ih hm
    have hatom := atom_conserves ha
    have hatomLe := hatom.le
    cases found with
    | true =>
      have hbreak := followBreaks_lt hs
      have hpos : 0 < tail.length := List.length_pos_iff.2 (by simpa using hne)
      simp only [List.length_append, length_breakText_true]
      refine ⟨by omega, fun hlast => .inl ?_⟩
      have : 2 ≤ tail.length := two_le_length_of_isBreak (isBreak_of_followBreaks hs) hlast
      omega
    | false =>
      rw [followBreaks_of_not_isBreak (isBreak_of_followBreaks hs)] at hs
      simp only [Prod.mk.injEq, true_and] at hs
      obtain ⟨rfl, rfl⟩ := hs
      simp only [List.length_append, length_breakText_false, Nat.zero_add]
      refine ⟨by omega, fun hlast => ?_⟩
      rcases hatom with ⟨rfl, heq⟩ | hstrict
      · -- The line feed ends what the atom leaves, or the atom itself if it leaves nothing.
        cases rest with
        | nil =>
          rw [expressionAtoms] at hm
          cases hm
          right
          rw [← heq, List.append_nil] at hlast
          simpa [breakText] using hlast
        | cons r rest =>
          rw [← heq, List.getLast?_append, Option.or_of_isSome (by simp)] at hlast
          rcases hlt hlast with hlt | hmore
          · left
            omega
          · right
            rw [List.getLast?_append, hmore]
            rfl
      · left
        omega

/-- Trimming takes something off a text that ends in a blank. -/
theorem Text.length_trimEnd_lt {t : Text} {c : Char} (h : t.getLast? = some c)
    (hc : isBlank c = true) : t.trimEnd.length < t.length := by
  obtain ⟨t', rfl⟩ := List.getLast?_eq_some_iff.1 h
  have hle : (t'.reverse.dropWhile isBlank).length ≤ t'.reverse.length :=
    (List.dropWhile_sublist isBlank).length_le
  rw [List.length_reverse] at hle
  simp only [trimEnd, List.reverse_append, List.reverse_singleton, List.singleton_append,
    List.dropWhile_cons, hc, if_true, List.length_reverse, List.length_append,
    List.length_singleton]
  omega

/-- What ends in a blank is longer than its trimmed form. -/
theorem Text.length_trim_lt {t : Text} {c : Char} (h : t.getLast? = some c)
    (hc : isBlank c = true) : t.trim.length < t.length := by
  have hle := length_trimStart_le t
  obtain ⟨front, hfront⟩ := trimStart_suffix t
  unfold trim
  cases hs : t.trimStart with
  | nil =>
    have : t ≠ [] := by
      rintro rfl
      cases h
    exact List.length_pos_iff.2 this
  | cons a u =>
    rw [hs] at hfront hle
    have hlast : (a :: u).getLast? = some c := by
      rw [← h, ← hfront, List.getLast?_append, Option.or_of_isSome (by simp)]
    exact Nat.lt_of_lt_of_le (length_trimEnd_lt hlast hc) hle

/-- An expression is no longer than the trimmed text that it starts from, with the lines pulled. -/
theorem expression_le {t e : Text} {cur cur' : Cursor} (h : expression t cur = (.ok e, cur')) :
    cur'.size + e.length ≤ cur.size + t.trim.length := by
  unfold expression at h
  split at h
  · rename_i read cur₁ hr
    simp only [Prod.mk.injEq, Except.ok.injEq] at h
    obtain ⟨rfl, rfl⟩ := h
    obtain ⟨hle, hlt⟩ := expressionAtoms_le hr
    rw [List.length_append, List.length_singleton] at hle hlt
    rcases hlt (by simp) with hlt | hlast
    · have := Text.length_trim_le read
      omega
    · have := Text.length_trim_lt hlast (by decide)
      omega
  · simp at h

/-! ## The rest of a statement -/

/-- What a token leaves loses the mark that ended it. -/
theorem token?_drop_lt {n : Nesting} {stops : List Text} {line v rest : Text} {cur cur' : Cursor}
    (h : token? n [] stops line cur = (.ok (some (v, rest)), cur')) :
    cur'.size + (Text.trimStart (rest.drop 1)).length < cur.size + line.length := by
  have hle := token?_le h
  have htrim := Text.length_trimStart_le (rest.drop 1)
  have hdrop := List.length_drop (i := 1) (l := rest)
  have hreach := (token?_leads h).reaches.size_le
  have hline : 0 < line.length := by
    refine List.length_pos_iff.2 ?_
    rintro rfl
    simp [token?] at h
  simp only at hreach
  omega

theorem forward_splitStatement (d : Delimiters) (t : Text) :
    Scan.Forward (splitStatement d t) := by
  refine (forward_expression t).bind fun e => ?_
  refine Scan.Forward.bind (reaches_token? d.placeholder [] [[':'], ['\n']] e) fun found => ?_
  cases found with
  | none => exact Scan.forward_pure _
  | some found => exact Scan.forward_pure _

/-- What follows the colon of a statement is less than the trimmed statement. -/
theorem splitStatement_lt {d : Delimiters} {t expr rest : Text} {cur cur' : Cursor}
    (h : splitStatement d t cur = (.ok (expr, rest), cur')) :
    rest = [] ∨ cur'.size + rest.length < cur.size + t.trim.length := by
  obtain ⟨e, cur₁, he, hr⟩ := Scan.bind_eq_ok_iff.1 h
  obtain ⟨found, cur₂, ht, hf⟩ := Scan.bind_eq_ok_iff.1 hr
  cases found with
  | none =>
    cases hf
    exact .inl rfl
  | some found =>
    cases hf
    exact .inr (Nat.lt_of_lt_of_le (token?_drop_lt ht) (expression_le he))

theorem forward_restAfterColon (d : Delimiters) (t : Text) :
    Scan.Forward (restAfterColon d t) := by
  refine Scan.Forward.bind (reaches_token? d.placeholder [] [[':'], ['\n']] t) fun found => ?_
  cases found with
  | none => exact Scan.forward_pure _
  | some found => exact Scan.forward_pure _

/-- What follows a colon is less than there was, if there is anything. -/
theorem restAfterColon_lt {d : Delimiters} {t rest : Text} {cur cur' : Cursor}
    (h : restAfterColon d t cur = (.ok rest, cur')) :
    rest = [] ∨ cur'.size + rest.length < cur.size + t.length := by
  obtain ⟨found, cur₁, ht, hf⟩ := Scan.bind_eq_ok_iff.1 h
  cases found with
  | none =>
    cases hf
    exact .inl rfl
  | some found =>
    cases hf
    exact .inr (token?_drop_lt ht)

end TerseMarkup
