import TerseMarkup.Diagnostic.Report
import TerseMarkup.Proofs.Verbatim
import TerseMarkup.Proofs.Wrapper

/-!
# Carets under a line

A report shows the line that a diagnostic points to, and under it a row of carets. Both rows start
behind a column of the same width. There is a caret for each character of the trimmed line, but the
spaces in front of the carets are counted in bytes, and the indentation of a line in characters.

* `Text.byteSize_eq_length_iff`: the two counts agree for texts of ASCII characters only.
* `Line.indent_ofRaw_eq_iff`: the leading blanks of a line are its indentation, unless the line is
  blank and there is a carriage return too many at its end.
* `Diagnostic.report_carets`: what the two rows are, and that the carets stand under the text
  exactly if all leading blanks are ASCII.
* `Diagnostic.carets_beside_text`: one blank of two bytes, and the carets are off by a column.
-/

namespace TerseMarkup

/-! ## Sizes in bytes -/

/-- A character is one byte exactly if it is ASCII. -/
theorem utf8Size_eq_one_iff_toNat (c : Char) : c.utf8Size = 1 ↔ c.toNat < 128 := by
  rw [Char.utf8Size_eq_one_iff, UInt32.le_iff_toNat_le]
  exact Nat.lt_succ_iff.symm

namespace Text

/-- A text has at least as many bytes as characters. -/
theorem length_le_byteSize (t : Text) : t.length ≤ t.byteSize := by
  induction t with
  | nil => exact Nat.le_refl 0
  | cons c t ih =>
    have hpos := c.utf8Size_pos
    rw [List.length_cons, byteSize_cons]
    omega

/-- A text has as many bytes as characters only if all of them are ASCII. -/
theorem byteSize_eq_length_iff (t : Text) : t.byteSize = t.length ↔ ∀ c ∈ t, c.toNat < 128 := by
  induction t with
  | nil => simp
  | cons c t ih =>
    have hpos := c.utf8Size_pos
    have hle := length_le_byteSize t
    rw [List.forall_mem_cons, ← ih, ← utf8Size_eq_one_iff_toNat, List.length_cons, byteSize_cons]
    omega

/-- The bytes that trimming takes off are those of the leading blanks. -/
theorem byteSize_sub_trimStart (t : Text) :
    t.byteSize - t.trimStart.byteSize = byteSize (t.takeWhile isBlank) := by
  have hsplit := congrArg byteSize (takeWhile_append_trimStart t)
  rw [byteSize_append] at hsplit
  omega

/-! ## The columns of the trimmed text -/

/-- Column `i` lies between the first and the last character of the text that are not blank, these
included. -/
def InTrimmed (t : Text) (i : Nat) : Prop :=
  ∃ j k, j ≤ i ∧ i ≤ k ∧ (t[j]?.any fun c => !isBlank c) = true ∧
    (t[k]?.any fun c => !isBlank c) = true

/-- A text is its leading blanks, the trimmed text and trailing blanks. -/
theorem exists_eq_trim_append (t : Text) :
    ∃ trail, (∀ c ∈ trail, isBlank c = true) ∧ t = t.takeWhile isBlank ++ (t.trim ++ trail) := by
  obtain ⟨trail, htrail, hblank⟩ := exists_trimEnd_append t.trimStart
  refine ⟨trail, List.all_eq_true.1 hblank, ?_⟩
  unfold trim
  rw [← htrail, takeWhile_append_trimStart]

/-- Between blanks, a character that is not blank stands in the middle part. -/
theorem lt_of_not_blank {lead text trail : Text} (hlead : ∀ c ∈ lead, isBlank c = true)
    (htrail : ∀ c ∈ trail, isBlank c = true) {n : Nat}
    (h : ((lead ++ (text ++ trail))[n]?.any fun c => !isBlank c) = true) :
    lead.length ≤ n ∧ n < lead.length + text.length := by
  rw [Option.any_eq_true] at h
  obtain ⟨c, hc, hsolid⟩ := h
  by_cases hfirst : n < lead.length
  · rw [List.getElem?_append_left hfirst] at hc
    rw [hlead c (List.mem_of_getElem? hc)] at hsolid
    cases hsolid
  · rw [List.getElem?_append_right (by omega)] at hc
    refine ⟨by omega, ?_⟩
    by_cases hsecond : n - lead.length < text.length
    · omega
    · rw [List.getElem?_append_right (by omega)] at hc
      rw [htrail c (List.mem_of_getElem? hc)] at hsolid
      cases hsolid

/-- The trimmed text starts behind the leading blanks. -/
theorem inTrimmed_iff {t : Text} (i : Nat) :
    t.InTrimmed i ↔ (t.takeWhile isBlank).length ≤ i ∧
      i < (t.takeWhile isBlank).length + t.trim.length := by
  obtain ⟨trail, htrail, ht⟩ := exists_eq_trim_append t
  have hlead : ∀ c ∈ t.takeWhile isBlank, isBlank c = true :=
    List.all_eq_true.1 List.all_takeWhile
  have hhead : ∀ c, t.trim.head? = some c → isBlank c = false := fun c => isBlank_head?_trim
  have hlast : ∀ c, t.trim.getLast? = some c → isBlank c = false :=
    fun c => isBlank_getLast?_trimEnd
  generalize hleading : t.takeWhile isBlank = lead at ht hlead
  generalize htrimmed : t.trim = text at ht hhead hlast
  subst ht
  constructor
  · rintro ⟨j, k, hj, hk, hcj, hck⟩
    have hstart := lt_of_not_blank hlead htrail hcj
    have hend := lt_of_not_blank hlead htrail hck
    omega
  · rintro ⟨hstart, hend⟩
    have hne : text ≠ [] := by
      rintro rfl
      rw [List.length_nil] at hend
      omega
    refine ⟨lead.length, lead.length + (text.length - 1), hstart, by omega, ?_, ?_⟩
    · obtain ⟨c, u, rfl⟩ := List.exists_cons_of_ne_nil hne
      rw [List.getElem?_append_right (Nat.le_refl _), Nat.sub_self]
      simp [hhead c rfl]
    · rw [List.getElem?_append_right (by omega), Nat.add_sub_cancel_left,
        List.getElem?_append_left (by omega), ← List.getLast?_eq_getElem?]
      have hsome := List.getLast?_eq_some_getLast hne
      rw [hsome]
      simp [hlast _ hsome]

/-! ## Terminators -/

/-- What a line loses with its terminator are characters of line ends. -/
theorem exists_dropTerminator_append (raw : Text) :
    ∃ e, (∀ c ∈ e, c = '\n' ∨ c = '\r') ∧ raw = raw.dropTerminator ++ e := by
  unfold dropTerminator
  split
  · rename_i hfeed
    obtain ⟨front, rfl⟩ := List.getLast?_eq_some_iff.1 hfeed
    rw [List.dropLast_concat]
    split
    · rename_i hreturn
      obtain ⟨front, rfl⟩ := List.getLast?_eq_some_iff.1 hreturn
      exact ⟨['\r', '\n'], by simp, by simp⟩
    · exact ⟨['\n'], by simp, rfl⟩
  · exact ⟨[], by simp, (List.append_nil raw).symm⟩

/-- A line without its terminator does not end in a line feed. -/
theorem getLast?_dropTerminator_ne {source raw : Text} (h : raw ∈ source.lines) :
    raw.dropTerminator.getLast? ≠ some '\n' := by
  intro hfeed
  obtain ⟨e, -, heq⟩ := exists_dropTerminator_append raw
  obtain ⟨front, hfront⟩ := List.getLast?_eq_some_iff.1 hfeed
  have hnil : e = [] := by
    apply oneLine_of_mem_lines h front e
    rw [heq, hfront, List.append_assoc]
    rfl
  -- so nothing was dropped, though the line ends in a line feed
  rw [hnil, List.append_nil] at heq
  have hlast : raw.getLast? = some '\n' := by rw [heq, hfeed]
  have hlength : raw.dropTerminator.length < raw.length := by
    have hpos : 0 < raw.length := List.length_pos_of_mem (List.mem_of_getLast? hlast)
    unfold dropTerminator
    rw [if_pos hlast]
    split
    · simp only [List.length_dropLast]
      omega
    · rw [List.length_dropLast]
      omega
  rw [← heq] at hlength
  exact Nat.lt_irrefl _ hlength

end Text

/-! ## Indentation -/

/-- A line with text is measured up to its text. -/
theorem Line.indent_ofRaw_of_text {line : Text} (hline : Text.trimStart line ≠ []) (e : Text) :
    (Line.ofRaw (line ++ e)).indent = (line.takeWhile isBlank).length := by
  obtain ⟨c, u, hcu⟩ := List.exists_cons_of_ne_nil hline
  have hc : isBlank c = false := Text.isBlank_head?_trimStart (by rw [hcu]; rfl)
  conv => lhs; rw [← Text.takeWhile_append_trimStart line, hcu, List.append_assoc, List.cons_append]
  rw [Line.ofRaw_append (List.all_eq_true.1 List.all_takeWhile) hc]

/-- A blank line is measured up to its last character that could be of a terminator. -/
theorem Line.indent_ofRaw_of_blank {line e : Text} (hline : ∀ c ∈ line, isBlank c = true)
    (he : ∀ c ∈ e, c = '\n' ∨ c = '\r') :
    (Line.ofRaw (line ++ e)).indent =
      (line.reverse.dropWhile fun c => c == '\n' || c == '\r').length := by
  have htrim : Text.trimStart (line ++ e) = [] := by
    rw [Text.trimStart_append_blank hline, Text.trimStart_eq_nil_iff]
    intro c hc
    rcases he c hc with rfl | rfl
    · decide
    · decide
  unfold Line.ofRaw Line.blankWidth
  simp only [htrim, List.isEmpty_nil, if_true]
  rw [List.reverse_append, List.dropWhile_append_of_pos]
  intro c hc
  simpa using he c (List.mem_reverse.1 hc)

/-- Without a line feed at its end, a line loses nothing exactly if it does not end in a carriage
return. -/
theorem Text.length_dropWhile_reverse_eq_iff {line : Text} (hfeed : line.getLast? ≠ some '\n') :
    (line.reverse.dropWhile fun c => c == '\n' || c == '\r').length = line.length ↔
      line.getLast? ≠ some '\r' := by
  rcases List.eq_nil_or_concat line with rfl | ⟨t, c, rfl⟩
  · simp
  · rw [List.concat_eq_append, List.getLast?_concat] at hfeed
    rw [List.concat_eq_append, List.getLast?_concat, List.reverse_append, List.reverse_singleton,
      List.singleton_append, List.dropWhile_cons]
    by_cases hc : c = '\r'
    · subst hc
      have hle : (t.reverse.dropWhile fun c => c == '\n' || c == '\r').length ≤ t.length := by
        refine Nat.le_trans (List.dropWhile_sublist _).length_le ?_
        exact Nat.le_of_eq List.length_reverse
      rw [if_pos (by decide), List.length_append, List.length_singleton]
      exact ⟨fun hlength => absurd hlength (by omega), fun hne => absurd rfl hne⟩
    · have hother : (c == '\n' || c == '\r') = false := by simp_all
      simp [hother, hc]

/-- The indentation of a line counts its leading blanks, but for carriage returns at the end of a
blank line. -/
theorem Line.indent_ofRaw_eq_iff {source raw : Text} (h : raw ∈ source.lines) :
    (Line.ofRaw raw).indent = (raw.dropTerminator.takeWhile isBlank).length ↔
      ¬ (raw.dropTerminator.trim = [] ∧ raw.dropTerminator.getLast? = some '\r') := by
  have hfeed := Text.getLast?_dropTerminator_ne h
  obtain ⟨e, he, heq⟩ := Text.exists_dropTerminator_append raw
  generalize raw.dropTerminator = line at heq hfeed
  subst heq
  by_cases hline : Text.trimStart line = []
  · have hall := Text.trimStart_eq_nil_iff.1 hline
    have htake : line.takeWhile isBlank = line := by
      conv => rhs; rw [← Text.takeWhile_append_trimStart line, hline, List.append_nil]
    rw [htake, Line.indent_ofRaw_of_blank hall he, Text.length_dropWhile_reverse_eq_iff hfeed,
      Text.trim_eq_nil_iff.2 hall]
    exact ⟨fun hne hboth => hne hboth.2, fun hnone hlast => hnone ⟨rfl, hlast⟩⟩
  · refine ⟨fun _ hnil => ?_, fun _ => Line.indent_ofRaw_of_text hline e⟩
    exact hline (Text.trimStart_eq_nil_iff.2 (Text.trim_eq_nil_iff.1 hnil.1))

/-! ## Reports -/

namespace Diagnostic

/-- A field that is wide enough has its width. -/
theorem length_padLeft {width : Nat} {t : Text} (h : t.length ≤ width) :
    (padLeft width t).length = width := by
  unfold padLeft Text.copies
  rw [List.length_append, List.length_replicate]
  omega

/-- A row of carets behind spaces. -/
def caretRow (spaces marks : Nat) : Text :=
  Text.copies spaces ' ' ++ Text.copies marks '^'

/-- The carets stand behind the spaces, one beside the other. -/
theorem getElem?_caretRow (spaces marks i : Nat) :
    (caretRow spaces marks)[i]? = some '^' ↔ spaces ≤ i ∧ i < spaces + marks := by
  unfold caretRow Text.copies
  by_cases hi : i < spaces
  · rw [List.getElem?_append_left (by simpa using hi), List.getElem?_replicate, if_pos hi]
    refine ⟨fun h => absurd h (by decide), fun h => absurd h.1 (by omega)⟩
  · rw [List.getElem?_append_right (by simpa using hi), List.length_replicate,
      List.getElem?_replicate]
    split
    · exact ⟨fun _ => by omega, fun _ => rfl⟩
    · exact ⟨fun h => absurd h (by decide), fun h => absurd h.2 (by omega)⟩

/-- The carets stand under the text exactly if the leading blanks are as wide as their bytes. -/
theorem caretRow_covers_iff {line : Text} (hline : line.trim ≠ []) :
    (∀ i, (caretRow (Text.byteSize (line.takeWhile isBlank)) (max 1 line.trim.length))[i]? =
        some '^' ↔ line.InTrimmed i) ↔ ∀ c ∈ line.takeWhile isBlank, c.toNat < 128 := by
  have hpos : 0 < line.trim.length := List.length_pos_iff.2 hline
  have hle := Text.length_le_byteSize (line.takeWhile isBlank)
  rw [← Text.byteSize_eq_length_iff, Nat.max_eq_right hpos]
  simp only [getElem?_caretRow, Text.inTrimmed_iff]
  constructor
  · intro h
    have hfirst := (h (line.takeWhile isBlank).length).2 ⟨Nat.le_refl _, by omega⟩
    omega
  · intro h i
    rw [h]

/-- A report of a diagnostic with a line has the excerpt of that line in it. -/
theorem exists_report_eq {e : Diagnostic} {n : Nat} (hline : e.line? = some n)
    (source file : Text) :
    ∃ before after, e.report .plain source file = before ++ excerpt .plain source n ++ after := by
  unfold report
  simp only [hline, Option.map_some, Option.getD_some]
  exact ⟨_, _, List.append_assoc _ _ _⟩

/-- The report of a diagnostic that points to a line: the line behind its number, and the carets
behind a column of the same width. -/
theorem report_carets {e : Diagnostic} {n : Nat} (hline : e.line? = some n) {source raw : Text}
    (hraw : source.lines[n - 1]? = some raw) (file : Text) :
    ∃ before after spaces marks,
      e.report .plain source file =
        before ++ ['\n'] ++
          (padLeft (gutterWidth n) (Text.ofNat n) ++ " | ".toList ++ raw.dropTerminator ++
            ['\n']) ++
          (padLeft (gutterWidth n) [] ++ " | ".toList ++ caretRow spaces marks ++ ['\n']) ++ after ∧
      (padLeft (gutterWidth n) (Text.ofNat n)).length = (padLeft (gutterWidth n) []).length ∧
      spaces = Text.byteSize (raw.dropTerminator.takeWhile isBlank) ∧
      marks = max 1 raw.dropTerminator.trim.length ∧
      (spaces = (raw.dropTerminator.takeWhile isBlank).length ↔
        ∀ c ∈ raw.dropTerminator.takeWhile isBlank, c.toNat < 128) ∧
      ((Line.ofRaw raw).indent = (raw.dropTerminator.takeWhile isBlank).length ↔
        ¬ (raw.dropTerminator.trim = [] ∧ raw.dropTerminator.getLast? = some '\r')) ∧
      (raw.dropTerminator.trim ≠ [] →
        ((∀ i, (caretRow spaces marks)[i]? = some '^' ↔ raw.dropTerminator.InTrimmed i) ↔
          ∀ c ∈ raw.dropTerminator.takeWhile isBlank, c.toNat < 128)) := by
  have hwidth : (padLeft (gutterWidth n) (Text.ofNat n)).length =
      (padLeft (gutterWidth n) []).length := by
    have hdigits : (Text.ofNat n).length ≤ gutterWidth n := Nat.le_max_right 2 _
    rw [length_padLeft hdigits, length_padLeft (Nat.zero_le _)]
  have hcarets : carets .plain raw.dropTerminator =
      caretRow (Text.byteSize (raw.dropTerminator.takeWhile isBlank))
        (max 1 raw.dropTerminator.trim.length) := by
    unfold carets caretRow
    rw [Text.byteSize_sub_trimStart]
    simp only [Palette.plain, List.append_nil]
  have hshown : excerpt .plain source n =
      padLeft (gutterWidth n) [] ++ " |".toList ++ ['\n'] ++
        (padLeft (gutterWidth n) (Text.ofNat n) ++ " | ".toList ++ raw.dropTerminator ++ ['\n']) ++
        (padLeft (gutterWidth n) [] ++ " | ".toList ++ carets .plain raw.dropTerminator ++
          ['\n']) := by
    unfold excerpt sourceLine?
    rw [hraw, Option.map_some]
    simp only [gutter, Palette.plain, List.append_nil, List.nil_append, List.append_assoc]
    rfl
  obtain ⟨before, after, hreport⟩ := exists_report_eq hline source file
  refine ⟨before ++ padLeft (gutterWidth n) [] ++ " |".toList, after, _, _, ?_, hwidth, rfl, rfl,
    Text.byteSize_eq_length_iff _, Line.indent_ofRaw_eq_iff (List.mem_of_getElem? hraw),
    caretRow_covers_iff⟩
  rw [hreport, hshown, hcarets]
  simp only [List.append_assoc]

/-- Behind a tab and a space the carets stand under the text, whatever the size of its
characters. -/
theorem report_carets_tab :
    (unrecognised 2 "?é".toList).line? = some 2 ∧
      (Text.lines "p\n\t ?é \r\n".toList)[2 - 1]? = some "\t ?é \r\n".toList ∧
      ∀ i, (caretRow 2 2)[i]? = some '^' ↔ Text.InTrimmed "\t ?é ".toList i := by
  have hline : (unrecognised 2 "?é".toList).line? = some 2 := by decide
  have hraw : (Text.lines "p\n\t ?é \r\n".toList)[2 - 1]? = some "\t ?é \r\n".toList := by
    decide
  obtain ⟨before, after, spaces, marks, -, -, rfl, rfl, -, -, hcovers⟩ :=
    report_carets hline hraw "page".toList
  refine ⟨hline, hraw, (hcovers (by decide)).2 ?_⟩
  exact Text.forall_mem_of_all (by decide)

/-- A line that is indented by a blank of two bytes: the carets stand one column too far to the
right. -/
theorem carets_beside_text :
    (unrecognised 1 "?x".toList).report .plain "\u00a0?x\n".toList "page".toList =
        "\n file: page:1\nerror: Invalid syntax at line 1: ?x\n".toList ++
          "   |\n 1 | \u00a0?x\n   |   ^^\n".toList ++ "\n help: ".toList ++
          "Tag names are lowercase; start literal text with | or an uppercase letter\n\n".toList ∧
      (Line.ofRaw "\u00a0?x\n".toList).indent = 1 ∧
      ¬ ∀ i, "  ^^".toList[i]? = some '^' ↔ Text.InTrimmed "\u00a0?x".toList i := by
  refine ⟨by decide +kernel, by decide, fun hcovers => ?_⟩
  have hcaret := (hcovers 1).2 ⟨1, 1, Nat.le_refl 1, Nat.le_refl 1, by decide, by decide⟩
  exact absurd hcaret (by decide)

end Diagnostic

end TerseMarkup
