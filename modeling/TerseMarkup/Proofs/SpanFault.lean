import TerseMarkup.Proofs.Extension

/-!
# The span that fails

Spans of markup are read one after the other, and the first one that fails decides what is reported.
It does not close, or its markup has a fault. The report is moved to the line where the span starts,
whatever line of its own the fault is at.

* `PassesSpans`: the text in front of a span is read without a fault.
* `SpanFails`: the span at the front of a text fails, and how.
* `renderSpans_eq_error_iff`: a text fails exactly if there is a first span in it that does. The
  number of the line is counted up over all text in front of it, also over the spans that go on over
  lines.
-/

namespace TerseMarkup

/-! ## Text that is passed -/

/-- A span as written has two backticks for each one in its markup, and one that closes it. -/
theorem count_closeSpan? {t markup written rest : Text}
    (h : closeSpan? t = some (markup, written, rest)) :
    2 * markup.count '\x60' + 1 ≤ written.count '\x60' := by
  fun_induction closeSpan? t generalizing markup written rest with
  | case1 => cases h
  | case2 =>
    cases h
    decide
  | case3 u ih =>
    obtain ⟨⟨m, w, r⟩, hm, hp⟩ := Option.map_eq_some_iff.1 h
    cases hp
    have hle := ih hm
    simp only [List.count_cons_self]
    omega
  | case4 =>
    cases h
    decide
  | case5 =>
    cases h
    decide
  | case6 c t hc ih =>
    obtain ⟨⟨m, w, r⟩, hm, hp⟩ := Option.map_eq_some_iff.1 h
    cases hp
    have hle := ih hm
    rw [List.count_cons_of_ne hc, List.count_cons_of_ne hc]
    exact hle

/-- Without backticks a text stays as it is. -/
theorem renderSpans_of_not_mem (compile : Text → Except Diagnostic Text) (n : Nat) {t : Text}
    (h : '\x60' ∉ t) : renderSpans compile n t = .ok t := by
  induction t generalizing n with
  | nil => rw [renderSpans]
  | cons c t ih =>
    rw [List.mem_cons, not_or] at h
    rw [renderSpans_cons compile n t (Ne.symm h.1), ih _ h.2]
    rfl

/-- The number of a line is counted up over a character as the line feeds are counted. -/
theorem add_count_cons (n : Nat) (c : Char) (t : Text) :
    (if c = '\n' then n + 1 else n) + t.count '\n' = n + (c :: t).count '\n' := by
  by_cases hfeed : c = '\n'
  · rw [if_pos hfeed, hfeed, List.count_cons_self]
    omega
  · rw [if_neg hfeed, List.count_cons_of_ne hfeed]

/-- The text in front of `rest` has spans that are read without a fault. They are empty, or compile,
or are no markup at all. -/
inductive PassesSpans (compile : Text → Except Diagnostic Text) : Text → Text → Prop
  | nil (rest : Text) : PassesSpans compile [] rest
  | plain {c : Char} {before rest : Text} (hc : c ≠ '\x60') (h : PassesSpans compile before rest) :
      PassesSpans compile (c :: before) rest
  | doubled {before rest : Text} (h : PassesSpans compile before rest) :
      PassesSpans compile ('\x60' :: '\x60' :: before) rest
  | span {markup written before rest : Text} (hfirst : written.head? ≠ some '\x60')
      (hs : closeSpan? (written ++ (before ++ rest)) = some (markup, written, before ++ rest))
      (hreads : markup.trim = [] ∨ (∃ out, compile markup.trim = .ok out) ∨
        ∃ n body, compile markup.trim = .error (.unrecognised n body))
      (h : PassesSpans compile before rest) :
      PassesSpans compile ('\x60' :: written ++ before) rest

/-! ## The first failure -/

/-- The span at the front of the text fails, and is reported at line `n`: it does not close, or its
markup has a fault. -/
inductive SpanFails (compile : Text → Except Diagnostic Text) (n : Nat) : Text → Diagnostic → Prop
  | unclosed {t : Text} (hfirst : t.head? ≠ some '\x60') (hs : closeSpan? t = none) :
      SpanFails compile n ('\x60' :: t) (unclosedSpan ('\x60' :: t) n)
  | markup {t markup written rest : Text} {d : Diagnostic} (hfirst : t.head? ≠ some '\x60')
      (hs : closeSpan? t = some (markup, written, rest)) (hne : markup.trim ≠ [])
      (hd : compile markup.trim = .error d) (hknown : ∀ k body, d ≠ .unrecognised k body) :
      SpanFails compile n ('\x60' :: t) (d.atLine n)

section

variable {compile : Text → Except Diagnostic Text} {n k : Nat} {t before rest : Text}
  {e : Diagnostic}

/-- A span that fails starts with a backtick. -/
theorem SpanFails.exists_cons (h : SpanFails compile n t e) : ∃ u, t = '\x60' :: u := by
  cases h with
  | unclosed | markup => exact ⟨_, rfl⟩

/-- If there is a line in the report, it is that of the span. -/
theorem SpanFails.line_eq (h : SpanFails compile n t e) (hk : e.line? = some k) : k = n := by
  have hline (m : Nat) (hm : (if m = 0 then none else some m) = some k) : k = m := by
    split at hm
    · cases hm
    · exact (Option.some.inj hm).symm
  cases h with
  | unclosed => exact hline n hk
  | @markup _ _ _ _ d =>
    cases d with
    | malformed | unrecognised | unterminated | noTranspiler => exact hline n hk
    | tooDeep | unknownProfile => cases hk

/-- One of the spans of a text fails, and all text in front of that is passed. `n` is the line where
the text starts. -/
def FirstFails (compile : Text → Except Diagnostic Text) (n : Nat) (t : Text) (e : Diagnostic) :
    Prop :=
  ∃ before rest, t = before ++ rest ∧ PassesSpans compile before rest ∧
    SpanFails compile (n + before.count '\n') rest e

/-- Other characters are passed on the way to the first fault. -/
theorem FirstFails.plain {c : Char} (hc : c ≠ '\x60')
    (h : FirstFails compile (if c = '\n' then n + 1 else n) t e) :
    FirstFails compile n (c :: t) e := by
  obtain ⟨before, rest, rfl, hpasses, hfails⟩ := h
  rw [add_count_cons] at hfails
  exact ⟨c :: before, rest, rfl, .plain hc hpasses, hfails⟩

/-- So are doubled backticks. -/
theorem FirstFails.doubled (h : FirstFails compile n t e) :
    FirstFails compile n ('\x60' :: '\x60' :: t) e := by
  obtain ⟨before, rest, rfl, hpasses, hfails⟩ := h
  exact ⟨'\x60' :: '\x60' :: before, rest, rfl, .doubled hpasses, hfails⟩

/-- So are spans without a fault, with all of their lines. -/
theorem FirstFails.span {b : Char} {u markup written : Text} (hb : b ≠ '\x60')
    (hs : closeSpan? (b :: u) = some (markup, written, rest))
    (hreads : markup.trim = [] ∨ (∃ out, compile markup.trim = .ok out) ∨
      ∃ n body, compile markup.trim = .error (.unrecognised n body))
    (h : FirstFails compile (n + written.count '\n') rest e) :
    FirstFails compile n ('\x60' :: b :: u) e := by
  obtain ⟨before, rest', rfl, hpasses, hfails⟩ := h
  have hsplit := eq_append_of_closeSpan? hs
  have hfirst : written.head? ≠ some '\x60' := by
    cases written with
    | nil => simp
    | cons a w =>
      obtain ⟨rfl, -⟩ := List.cons.inj hsplit
      simpa using hb
  rw [hsplit] at hs
  refine ⟨'\x60' :: written ++ before, rest', ?_, .span hfirst hs hreads hpasses, ?_⟩
  · rw [hsplit]
    simp
  · rw [List.cons_append, List.count_cons_of_ne (by decide), List.count_append, ← Nat.add_assoc]
    exact hfails

/-- A span that fails is a fault of the text that starts with it. -/
theorem SpanFails.renderSpans_eq (h : SpanFails compile n t e) :
    renderSpans compile n t = .error e := by
  cases h with
  | @unclosed t hfirst hs =>
    cases t with
    | nil =>
      rw [renderSpans]
      rfl
    | cons b u =>
      exact renderSpans_unclosed compile n (by simpa using hfirst) hs
  | @markup t markup written rest d hfirst hs hne hd hknown =>
    cases t with
    | nil => cases hs
    | cons b u =>
      rw [renderSpans_span compile n (by simpa using hfirst) hs, if_neg (by simpa using hne), hd]
      cases d with
      | unrecognised k body => exact absurd rfl (hknown k body)
      | malformed | unterminated | noTranspiler | tooDeep | unknownProfile => rfl

/-- What is passed changes nothing but the number of the line. -/
theorem PassesSpans.renderSpans_eq (h : PassesSpans compile before rest)
    (hrest : renderSpans compile (n + before.count '\n') rest = .error e) :
    renderSpans compile n (before ++ rest) = .error e := by
  induction h generalizing n with
  | nil => exact hrest
  | @plain c before rest hc h ih =>
    rw [← add_count_cons] at hrest
    rw [List.cons_append, renderSpans_cons compile n _ hc, ih hrest]
    rfl
  | doubled h ih =>
    rw [List.cons_append, List.cons_append, renderSpans]
    simp only [if_true]
    rw [ih hrest]
    rfl
  | @span markup written before rest hfirst hs hreads h ih =>
    rw [List.cons_append, List.count_cons_of_ne (by decide), List.count_append,
      ← Nat.add_assoc] at hrest
    have hnext := ih hrest
    cases written with
    | nil =>
      have hticks := count_closeSpan? hs
      exact absurd hticks (by simp)
    | cons b w =>
      have hb : b ≠ '\x60' := by simpa using hfirst
      have hspan := renderSpans_span compile n hb hs
      rw [hnext] at hspan
      rw [List.append_assoc]
      refine hspan.trans ?_
      rcases hreads with hnil | ⟨out, hout⟩ | ⟨m, body, hbody⟩
      · rw [if_pos (List.isEmpty_iff.2 hnil)]
      · split
        · rfl
        · rw [hout]
          rfl
      · split
        · rfl
        · rw [hbody]
          rfl

/-- A text fails exactly if there is a first span in it that does. -/
theorem renderSpans_eq_error_iff :
    renderSpans compile n t = .error e ↔ FirstFails compile n t e := by
  constructor
  · intro h
    fun_induction renderSpans compile n t with
    | case1 => cases h
    | case2 n =>
      cases h
      exact ⟨[], ['\x60'], rfl, .nil _, .unclosed (by simp) rfl⟩
    | case3 n u ih => exact (ih (eq_error_of_map_eq_error h)).doubled
    | case4 n b u hb hs =>
      cases h
      exact ⟨[], _, rfl, .nil _, .unclosed (by simpa using hb) hs⟩
    | case5 n b u hb markup written rest hs after hnil ih =>
      exact (ih h).span hb hs (.inl (List.isEmpty_iff.1 hnil))
    | case6 n b u hb markup written rest hs after hnil out hc ih =>
      exact (ih (eq_error_of_map_eq_error h)).span hb hs (.inr (.inl ⟨out, hc⟩))
    | case7 n b u hb markup written rest hs after hnil line body hc ih =>
      exact (ih (eq_error_of_map_eq_error h)).span hb hs (.inr (.inr ⟨line, body, hc⟩))
    | case8 n b u hb markup written rest hs hnil d hknown hc =>
      cases h
      refine ⟨[], _, rfl, .nil _, .markup (by simpa using hb) hs ?_ hc hknown⟩
      exact mt List.isEmpty_iff.2 hnil
    | case9 n c t hc ih => exact (ih (eq_error_of_map_eq_error h)).plain hc
  · rintro ⟨before, rest, rfl, hpasses, hfails⟩
    exact hpasses.renderSpans_eq hfails.renderSpans_eq

end

end TerseMarkup
