/-
**The lines of a caption.**

A caption is read line by line: a line `label: value` is a field, and the first title field is the
title the caption names.  A symbol of a line that is no line boundary stays in its line, so that a
caption falls into the line of a text and the lines before and after it.

* `splitlines_of_forall`, `splitlines_around` — the line of a text;
* `fieldMatch_append`, `fieldMatch_strip` — field lines;
* `lineTitle`, `labelledTitle_eq` — the title a caption names.
-/

import CineGate.ArchiveParser
import CineGate.TokenBoundaries

set_option relaxedAutoImplicit false
set_option autoImplicit false

namespace CineGate

/-! ### The line of a text -/

/-- What stands before a position in its line. -/
def lineBefore (x : Str) : Str := x.rtakeWhile fun c => !isLineBreak c

/-- What stands after a position in its line. -/
def lineAfter (y : Str) : Str := y.takeWhile fun c => !isLineBreak c

/-- The lines before the line of a position. -/
def linesBefore (x : Str) : List Str := splitlines (x.rdropWhile fun c => !isLineBreak c)

/-- The lines after the line of a position. -/
def linesAfter (y : Str) : List Str := (splitlines (y.dropWhile fun c => !isLineBreak c)).tail

theorem splitlinesFrom_cons {c : Char} (hc : isLineBreak c = false) (line text : Str) :
    splitlinesFrom line (c :: text) = splitlinesFrom (c :: line) text := by
  rw [splitlinesFrom.eq_def]
  split
  · next heq => cases heq
  · next heq =>
      obtain ⟨rfl, -⟩ := List.cons.inj heq
      exact absurd hc (by decide)
  · next heq =>
      obtain ⟨rfl, rfl⟩ := List.cons.inj heq
      rw [hc]
      rfl

theorem splitlinesFrom_append {w : Str} (hw : ∀ c ∈ w, isLineBreak c = false) (line text : Str) :
    splitlinesFrom line (w ++ text) = splitlinesFrom (w.reverse ++ line) text := by
  induction w generalizing line with
  | nil => rfl
  | cons c w ih =>
      rw [List.cons_append, splitlinesFrom_cons (hw c List.mem_cons_self),
        ih fun x hx => hw x (List.mem_cons_of_mem c hx)]
      simp

/-- A line ends at the end of the text and at a line boundary. -/
theorem splitlinesFrom_end {line text : Str} (hline : line ≠ [])
    (htext : ∀ c, text.head? = some c → isLineBreak c) :
    splitlinesFrom line text = line.reverse :: (splitlines text).tail := by
  have hempty : line.isEmpty = false := List.isEmpty_eq_false_iff.2 hline
  unfold splitlines
  rw [splitlinesFrom.eq_def, splitlinesFrom.eq_def []]
  split
  · simp [hempty]
  · rfl
  · next c cs _ =>
      have hc := htext c rfl
      simp [hc]

/-- A text without line boundaries is one line. -/
theorem splitlines_of_forall {text : Str} (h : ∀ c ∈ text, isLineBreak c = false)
    (hne : text ≠ []) :
    splitlines text = [text] := by
  have hline := splitlinesFrom_append h [] []
  rw [List.append_nil, List.append_nil] at hline
  rw [splitlines, hline, splitlinesFrom_end (by simpa using hne) (fun c hc => (by cases hc)),
    List.reverse_reverse]
  rfl

/-- After a line boundary, a text is split for itself. -/
theorem splitlinesFrom_boundary {line x text : Str} (hx : ∀ c, x.getLast? = some c → isLineBreak c)
    (htext : ∀ c, text.head? = some c → isLineBreak c = false) (hline : x = [] → line = []) :
    splitlinesFrom line (x ++ text) = splitlinesFrom line x ++ splitlines text := by
  have hlast : ∀ {d : Char} {cs : Str}, (∀ c, (d :: cs).getLast? = some c → isLineBreak c) →
      ∀ c, cs.getLast? = some c → isLineBreak c := by
    intro d cs h c hc
    refine h c ?_
    rw [List.getLast?_cons, hc]
    rfl
  fun_induction splitlinesFrom line x with
  | case1 line hempty =>
      rw [hline rfl]
      rfl
  | case2 line hne =>
      rw [hline rfl] at hne
      exact absurd rfl hne
  | case3 line cs ih =>
      have hrest := ih (hlast (hlast hx)) fun _ => rfl
      rw [List.cons_append, List.cons_append, splitlinesFrom, hrest, List.cons_append]
  | case4 line c cs hpair hc ih =>
      have hrest := ih (hlast hx) fun _ => rfl
      have hstep : splitlinesFrom line (c :: (cs ++ text)) =
          line.reverse :: splitlinesFrom [] (cs ++ text) := by
        rw [splitlinesFrom.eq_def]
        split
        · next heq => cases heq
        · next rest heq =>
            -- a carriage return at the end is not joined with the text
            obtain ⟨rfl, hpair'⟩ := List.cons.inj heq
            cases cs with
            | nil =>
                have hnot := htext '\n' (by rw [← List.nil_append text, hpair']; rfl)
                exact absurd hnot (by decide)
            | cons d cs => exact (hpair cs rfl (by rw [(List.cons.inj hpair').1])).elim
        · next heq =>
            obtain ⟨rfl, rfl⟩ := List.cons.inj heq
            rw [if_pos hc]
      rw [List.cons_append, hstep, hrest, List.cons_append]
  | case5 line c cs hpair hc ih =>
      have hne : cs ≠ [] := by
        rintro rfl
        exact hc (hx c rfl)
      have hrest := ih (hlast hx) fun hnil => absurd hnil hne
      rw [List.cons_append, splitlinesFrom_cons (Bool.eq_false_iff.2 hc), hrest]

/-- **The line of a text**, and the lines before and after it. -/
theorem splitlines_around {t : Str} (x y : Str) (ht : ∀ c ∈ t, isLineBreak c = false)
    (hne : t ≠ []) :
    splitlines (x ++ t ++ y) =
      linesBefore x ++ (lineBefore x ++ t ++ lineAfter y) :: linesAfter y := by
  have hx : x.rdropWhile (fun c => !isLineBreak c) ++ lineBefore x = x :=
    List.rdropWhile_append_rtakeWhile
  have hy : lineAfter y ++ y.dropWhile (fun c => !isLineBreak c) = y :=
    List.takeWhile_append_dropWhile
  have hline : ∀ c ∈ lineBefore x ++ t ++ lineAfter y, isLineBreak c = false := by
    intro c hc
    rcases List.mem_append.1 hc with hc | hc
    · rcases List.mem_append.1 hc with hc | hc
      · simpa using List.mem_rtakeWhile_imp hc
      · exact ht c hc
    · simpa using List.mem_takeWhile_imp hc
  have hnonempty : lineBefore x ++ t ++ lineAfter y ≠ [] := by simp [hne]
  -- the text is cut before and after the line
  have hsplit : x ++ t ++ y = x.rdropWhile (fun c => !isLineBreak c) ++
      ((lineBefore x ++ t ++ lineAfter y) ++ y.dropWhile fun c => !isLineBreak c) := by
    conv_lhs => rw [← hx, ← hy]
    simp
  have hlast : ∀ c, (x.rdropWhile fun c => !isLineBreak c).getLast? = some c → isLineBreak c := by
    intro c hc
    simpa using Runs.not_of_getLast?_rdropWhile hc
  have hhead : ∀ c, (y.dropWhile fun c => !isLineBreak c).head? = some c → isLineBreak c := by
    intro c hc
    have hnot := List.head?_dropWhile_not (fun c => !isLineBreak c) y
    rw [hc] at hnot
    simpa using hnot
  have hstart : ∀ c,
      ((lineBefore x ++ t ++ lineAfter y) ++ y.dropWhile fun c => !isLineBreak c).head? =
        some c → isLineBreak c = false := by
    intro c hc
    rw [List.head?_append_of_ne_nil _ hnonempty] at hc
    exact hline c (List.mem_of_head? hc)
  have hrest :
      splitlines ((lineBefore x ++ t ++ lineAfter y) ++ y.dropWhile fun c => !isLineBreak c) =
        (lineBefore x ++ t ++ lineAfter y) :: linesAfter y := by
    have hend : splitlinesFrom (lineBefore x ++ t ++ lineAfter y).reverse _ = _ :=
      splitlinesFrom_end (by simp [hne]) hhead
    rw [splitlines, splitlinesFrom_append hline, List.append_nil, hend, List.reverse_reverse]
    rfl
  rw [hsplit, splitlines, splitlinesFrom_boundary hlast hstart fun _ => rfl, hrest]
  rfl

/-! ### Field lines -/

/-- `[:：]` of `_FIELD_RE`. -/
def isColon (c : Char) : Bool := c = ':' || c = '：'

section

variable [UnicodeData]

theorem fieldMatch_append {before after : Str} {c : Char}
    (hbefore : ∀ c ∈ before, isColon c = false)
    (hc : isColon c) : fieldMatch (before ++ c :: after) =
      (fieldLabel before).bind fun label => (fieldValue after).map fun value => (label, value) := by
  have hdrop : (before ++ c :: after).dropWhile (fun c => !isColon c) = c :: after := by
    rw [List.dropWhile_append_of_pos (by simpa using hbefore),
      List.dropWhile_cons_of_neg (by simp [hc])]
  have htake : (before ++ c :: after).takeWhile (fun c => !isColon c) = before := by
    rw [List.takeWhile_append_of_pos (by simpa using hbefore),
      List.takeWhile_cons_of_neg (by simp [hc]),
      List.append_nil]
  unfold isColon at hdrop htake
  unfold fieldMatch
  dsimp only
  rw [hdrop, htake]

/-- A field line is split at its first colon. -/
theorem exists_of_fieldMatch {line : Str} (h : fieldMatch line ≠ none) : ∃ before c after,
    line = before ++ c :: after ∧ (∀ c ∈ before, isColon c = false) ∧ isColon c ∧
      (fieldLabel before).isSome ∧ (fieldValue after).isSome := by
  have hbefore : ∀ c ∈ line.takeWhile fun c => !isColon c, isColon c = false := by
    intro c hc
    simpa using List.mem_takeWhile_imp hc
  have hsplit := List.takeWhile_append_dropWhile (p := fun c => !isColon c) (l := line)
  cases hrest : line.dropWhile fun c => !isColon c with
  | nil =>
      refine absurd ?_ h
      unfold isColon at hrest
      unfold fieldMatch
      dsimp only
      rw [hrest]
  | cons c after =>
      have hc : isColon c = true := by
        have hhead := List.head?_dropWhile_not (fun c => !isColon c) line
        rw [hrest] at hhead
        simpa using hhead
      rw [hrest] at hsplit
      rw [← hsplit, fieldMatch_append hbefore hc] at h
      refine ⟨_, c, after, hsplit.symm, hbefore, hc, ?_, ?_⟩
      · rw [Option.isSome_iff_ne_none]
        intro hlabel
        rw [hlabel] at h
        exact h rfl
      · rw [Option.isSome_iff_ne_none]
        intro hvalue
        rw [hvalue] at h
        exact h (by simp)

/-- A line without a colon is no field line. -/
theorem fieldMatch_of_forall {line : Str} (h : ∀ c ∈ line, isColon c = false) :
    fieldMatch line = none := by
  by_contra hmatch
  obtain ⟨before, c, after, rfl, -, hc, -⟩ := exists_of_fieldMatch hmatch
  rw [h c (by simp)] at hc
  cases hc

/-- What white space is stripped from a text. -/
theorem strip_split (text : Str) : ∃ a b, (∀ c ∈ a, isSpace c) ∧ text = a ++ (strip text ++ b) ∧
    ∀ c, (strip text).head? = some c → isSpace c = false := by
  obtain ⟨b, hb⟩ := List.rdropWhile_prefix isSpace (text.dropWhile isSpace)
  refine ⟨text.takeWhile isSpace, b, fun c hc => List.mem_takeWhile_imp hc, ?_, fun c hc => ?_⟩
  · have hstrip : strip text ++ b = text.dropWhile isSpace := hb
    rw [hstrip, List.takeWhile_append_dropWhile]
  · exact (head?_stripBy hc).1

/-- A line that is no field line stays none when it is stripped. -/
theorem fieldMatch_strip {text : Str} (hcolon : ∀ c, isColon c → isSpace c = false)
    (h : fieldMatch text = none) : fieldMatch (strip text) = none := by
  by_contra hstrip
  obtain ⟨a, b, ha, htext, hhead⟩ := strip_split text
  obtain ⟨before, c, after, hline, hbefore, hc, hlabel, hvalue⟩ := exists_of_fieldMatch hstrip
  have hbefore' : ∀ c ∈ a ++ before, isColon c = false := by
    intro x hx
    rcases List.mem_append.1 hx with hx | hx
    · rw [Bool.eq_false_iff]
      intro hx'
      have hspace := ha x hx
      rw [hcolon x hx'] at hspace
      cases hspace
    · exact hbefore x hx
  have hsplit : text = (a ++ before) ++ c :: (after ++ b) := by
    rw [htext, hline]
    simp
  rw [hsplit, fieldMatch_append hbefore' hc] at h
  have hlabel' : (fieldLabel (a ++ before)).isSome := by
    cases before with
    | nil => cases hlabel
    | cons x before =>
        -- the label starts at the same symbol
        have hx : isSpace x = false := hhead x (by rw [hline]; rfl)
        have hself : (x :: before).dropWhile isSpace = x :: before :=
          List.dropWhile_cons_of_neg (by simp [hx])
        have hdrop : (a ++ x :: before).dropWhile isSpace = x :: before := by
          rw [List.dropWhile_append_of_pos ha, hself]
        unfold fieldLabel at hlabel ⊢
        rw [hself] at hlabel
        rw [hdrop]
        exact hlabel
  have hvalue' : (fieldValue (after ++ b)).isSome := by
    have hne : after ++ b ≠ [] := by
      rintro hnil
      rw [(List.append_eq_nil_iff.1 hnil).1] at hvalue
      cases hvalue
    unfold fieldValue
    dsimp only
    split
    · rw [Option.isSome_map, List.getLast?_eq_some_getLast hne]
      rfl
    · rfl
  obtain ⟨label, hlabel'⟩ := Option.isSome_iff_exists.1 hlabel'
  obtain ⟨value, hvalue'⟩ := Option.isSome_iff_exists.1 hvalue'
  rw [hlabel', hvalue'] at h
  cases h

/-! ### The title a caption names -/

/-- The title of a field line. -/
def lineTitle (rawLine : Str) : Option Str :=
  (fieldMatch rawLine).bind fun field =>
    if normalizeLabel field.1 ∈ titleLabels ∧ strip field.2 ≠ [] then some (strip field.2) else none

/-- The value of the first title label among the fields of a caption. -/
def labelledTitle (caption : Str) : Option Str :=
  ((extractFields caption).find? fun field => field.1 ∈ titleLabels).map Prod.snd

theorem find?_addField (fields : List (Str × Str)) (rawLine : Str) :
    ((addField fields rawLine).find? fun field => field.1 ∈ titleLabels).map Prod.snd =
      ((fields.find? fun field => field.1 ∈ titleLabels).map Prod.snd).or (lineTitle rawLine) := by
  unfold addField lineTitle
  cases hmatch : fieldMatch rawLine with
  | none => simp
  | some field =>
      rw [Option.bind_some]
      dsimp only
      by_cases htitle : normalizeLabel field.1 ∈ titleLabels
      · have hlabel : (normalizeLabel field.1).isEmpty = false := by
          have hall : ∀ label ∈ titleLabels, label.isEmpty = false := by decide
          exact hall _ htitle
        by_cases hvalue : strip field.2 = []
        · simp [hvalue]
        · have hvalue' : (strip field.2).isEmpty = false := List.isEmpty_eq_false_iff.2 hvalue
          by_cases hknown : normalizeLabel field.1 ∈ fields.map Prod.fst
          · -- a known label keeps its first value
            obtain ⟨known, hmem, heq⟩ := List.mem_map.1 hknown
            have hfound : (fields.find? fun field => field.1 ∈ titleLabels).isSome := by
              rw [List.find?_isSome]
              exact ⟨known, hmem, by simpa [heq] using htitle⟩
            obtain ⟨first, hfirst⟩ := Option.isSome_iff_exists.1 hfound
            simp [hknown, hfirst]
          · rw [if_pos (by simp [hlabel, hvalue', hknown]), if_pos ⟨htitle, hvalue⟩,
              List.find?_append,
              List.find?_singleton, if_pos (by simpa using htitle), Option.map_or]
            rfl
      · have hnone : ¬ (normalizeLabel field.1 ∈ titleLabels ∧ strip field.2 ≠ []) :=
          fun h => htitle h.1
        rw [if_neg hnone, Option.or_none]
        split
        · rw [List.find?_append, List.find?_singleton, if_neg (by simpa using htitle),
            Option.or_none]
        · rfl

/-- **The title a caption names** is that of its first title line. -/
theorem labelledTitle_eq (caption : Str) :
    labelledTitle caption = (splitlines caption).findSome? lineTitle := by
  have hlines : ∀ (lines : List Str) (fields : List (Str × Str)),
      ((lines.foldl addField fields).find? fun field => field.1 ∈ titleLabels).map Prod.snd =
        ((fields.find? fun field => field.1 ∈ titleLabels).map Prod.snd).or
          (lines.findSome? lineTitle) := by
    intro lines
    induction lines with
    | nil => simp
    | cons line lines ih =>
        intro fields
        rw [List.foldl_cons, ih, find?_addField, Option.or_assoc, List.findSome?_cons]
        cases lineTitle line <;> rfl
  exact hlines (splitlines caption) []

end

end CineGate
