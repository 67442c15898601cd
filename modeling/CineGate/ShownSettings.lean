/-
**What the panel shows can be sent back.**

The panel of the owner shows the value of a setting as a text, `_format_setting` of
`admin/presentation.py` with the formatters of `admin/registry.py`, and asks for a new text, which
the parser of the setting reads.  A text that is sent back as it is shown must be read as the same
value: then the service finds that nothing changes and writes nothing.

* `formatPlain`, `formatDuration`, `settingFormats`, `shownSetting` — the texts;
* `PanelLaws` — what the texts take from the Unicode database;
* `parseInt_strOfInt`, `duration_shown`, `parse_shown` — a shown text is read as what it shows;
* `AdminTables.Sourced` — every stored value has been read from a text;
* `AdminTables.shown_value_changes_nothing` — the round trip.
-/

import CineGate.AuditTrail
import CineGate.CaptionLines
import CineGate.TitleWords

set_option relaxedAutoImplicit false
set_option autoImplicit false

namespace CineGate

/-! ### Texts -/

/-- `str` of an integer. -/
def strOfInt (n : ℤ) : Str := (toString n).toList

/-- `_format_plain`, on the values that plain settings take. -/
def formatPlain : Json → Option Str
  | .int n => some (strOfInt n)
  | .str text => some text
  | _ => none

/-- The units of `_format_duration`. -/
def shownUnits : List (Str × ℕ) :=
  [("يوم".toList, 86400), ("ساعة".toList, 3600), ("دقيقة".toList, 60), ("ثانية".toList, 1)]

section

variable [UnicodeData]

/-- `_format_duration`; `none` stands for a value that `int` refuses. -/
def formatDuration (value : Json) : Option Str :=
  (intOf value).map fun seconds =>
    if seconds % 86400 = 0 then strOfInt (seconds / 86400) ++ " يوم".toList
    else if seconds % 3600 = 0 then strOfInt (seconds / 3600) ++ " ساعة".toList
    else if seconds % 60 = 0 then strOfInt (seconds / 60) ++ " دقيقة".toList
    else strOfInt seconds ++ " ثانية".toList

/-- The formatters of `SETTINGS`; that of the similarity threshold, which shows two digits of a
float, is left out. -/
def settingFormats : List (Str × (Json → Option Str)) :=
  [("movie_delete_seconds".toList, formatDuration), ("search_result_limit".toList, formatPlain),
    ("source_channel_id".toList, formatPlain), ("archive_channel_id".toList, formatPlain),
    ("owner_chat_id".toList, formatPlain), ("public_base_url".toList, formatPlain),
    ("adsgram_block_id".toList, formatPlain), ("reward_session_seconds".toList, formatDuration),
    ("miniapp_init_data_max_age_seconds".toList, formatDuration)]

/-- `_format_setting`. -/
def formatSetting (format : Json → Option Str) (value : Json) : Str :=
  if value = .null then "غير مضبوط".toList else (format value).getD "قيمة غير صالحة حاليًا".toList

/-- What the panel shows as the current value of a setting. -/
def shownSetting [PythonLibrary] (t : AdminTables) (key : Str) : Option Str :=
  (settingFormats.lookup key).bind fun format =>
    (getSettingEffective t key).toOption.map (formatSetting format)

end

/-! ### Digits -/

/-- Digits are read one after the other. -/
theorem parseDigits_of_isDigit {text : Str} (htext : ∀ c ∈ text, c.isDigit) (n : ℕ) :
    parseDigits n text = some (Nat.ofDigitChars 10 text n) := by
  induction text generalizing n with
  | nil => rw [parseDigits, Nat.ofDigitChars_nil]
  | cons c text ih =>
      have hc : c.isDigit = true := htext c List.mem_cons_self
      have hne : c ≠ '_' := by
        rintro rfl
        exact absurd hc (by decide)
      rw [parseDigits, if_pos hc, ih fun d hd => htext d (List.mem_cons_of_mem c hd),
        Nat.ofDigitChars_cons]
      · rfl
      · exact fun _ _ h => absurd h hne

/-- One more digit. -/
theorem lt_of_digit {n v k : ℕ} {c : Char} (hc : c.isDigit)
    (hv : v < (10 * n + (c.toNat - 48) + 1) * 10 ^ k) : v < (n + 1) * 10 ^ (k + 1) := by
  simp only [Char.isDigit, Bool.and_eq_true, decide_eq_true_eq] at hc
  have hle : c.val.toNat ≤ 57 := UInt32.le_iff_toNat_le.1 hc.2
  have hnat : c.toNat = c.val.toNat := rfl
  calc v < (10 * n + (c.toNat - 48) + 1) * 10 ^ k := hv
    _ ≤ (n + 1) * 10 * 10 ^ k := Nat.mul_le_mul_right _ (by omega)
    _ = (n + 1) * 10 ^ (k + 1) := by rw [Nat.mul_assoc, Nat.pow_succ, Nat.mul_comm 10]

/-- A number has no more digits than its text. -/
theorem parseDigits_lt {n v : ℕ} {text : Str} (h : parseDigits n text = some v) :
    v < (n + 1) * 10 ^ (text.filter Char.isDigit).length := by
  induction n, text using parseDigits.induct with
  | case1 n =>
      cases h
      simp
  | case2 n c cs hc ih =>
      rw [parseDigits, if_pos hc] at h
      rw [List.filter_cons_of_neg (by decide), List.filter_cons_of_pos hc]
      exact lt_of_digit hc (ih h)
  | case3 n c cs hc =>
      rw [parseDigits, if_neg hc] at h
      cases h
  | case4 n c cs hother hc ih =>
      rw [parseDigits, if_pos hc] at h
      · rw [List.filter_cons_of_pos hc]
        exact lt_of_digit hc (ih h)
      · exact hother
  | case5 n c cs hother hc =>
      rw [parseDigits, if_neg hc] at h
      · cases h
      · exact hother

/-- A number that `int` can read: it has at most 4300 digits. -/
def IsReadable (n : ℕ) : Prop := (Nat.toDigits 10 n).length ≤ 4300

instance (n : ℕ) : Decidable (IsReadable n) := inferInstanceAs (Decidable (_ ≤ 4300))

theorem isReadable_of_parseUnsigned {n : ℕ} {text : Str} (h : parseUnsigned text = some n) :
    IsReadable n := by
  unfold parseUnsigned at h
  split at h
  · next hfits =>
      simp only [Bool.and_eq_true, decide_eq_true_eq] at hfits
      obtain ⟨hhead, hlength⟩ := hfits
      have hpos : 0 < (text.filter Char.isDigit).length := by
        cases text with
        | nil => cases hhead
        | cons c text =>
            have hc : c.isDigit = true := hhead
            rw [List.filter_cons_of_pos hc]
            exact Nat.succ_pos _
      have hlt := parseDigits_lt h
      rw [Nat.zero_add, Nat.one_mul] at hlt
      exact ((Nat.length_toDigits_le_iff (by decide) hpos).2 hlt).trans hlength
  · cases h

/-- What `int` reads can be read. -/
theorem isReadable_of_parseInt [UnicodeData] {n : ℤ} {text : Str} (h : parseInt text = some n) :
    IsReadable n.natAbs := by
  obtain ⟨ascii, -, h⟩ := Option.bind_eq_some_iff.1 h
  unfold parseAsciiInt at h
  split at h
  · next digits _ =>
      cases hdigits : parseUnsigned digits with
      | none => simp [hdigits] at h
      | some m =>
          obtain rfl : -(m : ℤ) = n := by simpa [hdigits] using h
          simpa using isReadable_of_parseUnsigned hdigits
  · next digits _ =>
      cases hdigits : parseUnsigned digits with
      | none => simp [hdigits] at h
      | some m =>
          obtain rfl : (m : ℤ) = n := by simpa [hdigits] using h
          simpa using isReadable_of_parseUnsigned hdigits
  · cases hdigits : parseUnsigned (stripBy isIntSpace ascii) with
    | none => simp [hdigits] at h
    | some m =>
        obtain rfl : (m : ℤ) = n := by simpa [hdigits] using h
        simpa using isReadable_of_parseUnsigned hdigits

/-! ### The text of an integer -/

/-- A digit is an ASCII character, no white space and no sign. -/
theorem isDigit_spec {c : Char} (hc : c.isDigit) :
    c.toNat < 127 ∧ isIntSpace c = false ∧ c ≠ '-' ∧ c ≠ '+' := by
  have hne : ∀ d : Char, d.isDigit = false → c ≠ d := by
    rintro d hd rfl
    rw [hc] at hd
    cases hd
  refine ⟨?_, ?_, hne '-' (by decide), hne '+' (by decide)⟩
  · simp only [Char.isDigit, Bool.and_eq_true, decide_eq_true_eq] at hc
    have hle : c.val.toNat ≤ 57 := UInt32.le_iff_toNat_le.1 hc.2
    have hnat : c.toNat = c.val.toNat := rfl
    omega
  · simp only [isIntSpace, decide_eq_false_iff_not, List.mem_cons, List.not_mem_nil, or_false,
      not_or]
    exact ⟨hne _ (by decide), hne _ (by decide), hne _ (by decide), hne _ (by decide),
      hne _ (by decide), hne _ (by decide)⟩

theorem isDigit_of_mem_digits {n : ℕ} {c : Char} (hc : c ∈ Nat.toDigits 10 n) : c.isDigit :=
  Nat.isDigit_of_mem_toDigits (by decide) (by decide) hc

theorem strOfInt_natCast (n : ℕ) : strOfInt n = Nat.toDigits 10 n := by
  have htext : toString (n : ℤ) = n.repr := rfl
  rw [strOfInt, htext, Nat.toList_repr]

theorem strOfInt_neg {n : ℤ} (hn : n < 0) : strOfInt n = '-' :: Nat.toDigits 10 n.natAbs := by
  obtain ⟨m, rfl⟩ := Int.eq_negSucc_of_lt_zero hn
  have htext : toString (Int.negSucc m) = "-" ++ (m + 1).repr := rfl
  rw [strOfInt, htext, String.toList_append, Nat.toList_repr]
  rfl

/-- The digits of a number that is not too long. -/
theorem parseUnsigned_digits {n : ℕ} (hn : IsReadable n) :
    parseUnsigned (Nat.toDigits 10 n) = some n := by
  have hdigits : ∀ c ∈ Nat.toDigits 10 n, c.isDigit := fun c hc => isDigit_of_mem_digits hc
  have hhead : (Nat.toDigits 10 n).head?.any Char.isDigit = true := by
    cases h : Nat.toDigits 10 n with
    | nil => exact absurd h Nat.toDigits_ne_nil
    | cons c cs => exact hdigits c (h ▸ List.mem_cons_self)
  have hlength : (Nat.toDigits 10 n).length ≤ 4300 := hn
  rw [parseUnsigned, List.filter_eq_self.2 hdigits, hhead, decide_eq_true hlength, Bool.and_self,
    if_pos rfl, parseDigits_of_isDigit hdigits, Nat.ofDigitChars_ten_toDigits]

theorem mapM_asciiOf [UnicodeData] {text : Str} (h : ∀ c ∈ text, c.toNat < 127) :
    text.mapM asciiOf = some text := by
  induction text with
  | nil => rfl
  | cons c text ih =>
      have hc : asciiOf c = some c := if_pos (h c List.mem_cons_self)
      rw [List.mapM_cons, hc, ih fun d hd => h d (List.mem_cons_of_mem c hd)]
      rfl

/-- Nothing is stripped from a text whose ends are kept. -/
theorem stripBy_of_ends {p : Char → Bool} {text : Str}
    (hhead : ∀ c, text.head? = some c → p c = false)
    (hlast : ∀ c, text.getLast? = some c → p c = false) : stripBy p text = text := by
  simpa using stripBy_append (a := []) (b := []) (by simp) (by simp) hhead hlast

theorem stripBy_eq_self {p : Char → Bool} {text : Str} (h : ∀ c ∈ text, p c = false) :
    stripBy p text = text :=
  stripBy_of_ends (fun c hc => h c (List.mem_of_head? hc)) fun c hc => h c (List.mem_of_getLast? hc)

/-- **`int` reads what `str` writes.** -/
theorem parseInt_strOfInt [UnicodeData] {n : ℤ} (hn : IsReadable n.natAbs) :
    parseInt (strOfInt n) = some n := by
  have hdigit : ∀ c ∈ Nat.toDigits 10 n.natAbs, c.isDigit := fun c hc => isDigit_of_mem_digits hc
  rcases lt_or_ge n 0 with hneg | hpos
  · rw [strOfInt_neg hneg, parseInt, mapM_asciiOf, Option.bind_some, parseAsciiInt, stripBy_eq_self]
    · have habs : -(n.natAbs : ℤ) = n := by omega
      simp only [parseUnsigned_digits hn]
      exact congrArg some habs
    · rintro c (_ | ⟨_, hc⟩)
      · decide
      · exact (isDigit_spec (hdigit c hc)).2.1
    · rintro c (_ | ⟨_, hc⟩)
      · decide
      · exact (isDigit_spec (hdigit c hc)).1
  · obtain ⟨m, rfl⟩ := Int.eq_ofNat_of_zero_le hpos
    rw [Int.natAbs_natCast] at hn hdigit
    rw [strOfInt_natCast, parseInt, mapM_asciiOf fun c hc => (isDigit_spec (hdigit c hc)).1,
      Option.bind_some, parseAsciiInt, stripBy_eq_self fun c hc => (isDigit_spec (hdigit c hc)).2.1]
    cases h : Nat.toDigits 10 m with
    | nil => exact absurd h Nat.toDigits_ne_nil
    | cons c cs =>
        obtain ⟨-, -, hminus, hplus⟩ := isDigit_spec (hdigit c (h ▸ List.mem_cons_self))
        rw [← h]
        split
        · next heq => exact absurd (List.cons.inj (h.symm.trans heq)).1 hminus
        · next heq => exact absurd (List.cons.inj (h.symm.trans heq)).1 hplus
        · rw [parseUnsigned_digits hn]
          rfl

/-! ### Shown texts are read -/

/-- What the texts of the panel take from the Unicode database: a minus sign is no white space, and
the letters of the units are neither white space nor digits, and have no case. -/
structure PanelLaws [UnicodeData] : Prop extends UnicodeLaws where
  isSpace_minus : isSpace '-' = false
  isSpace_unit : ∀ unit ∈ shownUnits, ∀ c ∈ unit.1, isSpace c = false
  casefold_unit : ∀ unit ∈ shownUnits, casefold unit.1 = unit.1

section Parsers

variable [UnicodeData] (laws : PanelLaws)
include laws

theorem PanelLaws.isSpace_of_isDigit {c : Char} (hc : c.isDigit) : isSpace c = false := by
  by_contra hspace
  have hspace : isSpace c = true := by simpa using hspace
  have halnum := laws.isAlnum_of_decimal c (by rw [laws.decimal_of_isDigit c hc]; rfl)
  rw [laws.isAlnum_of_isSpace c hspace] at halnum
  cases halnum

/-- The text of an integer has no white space. -/
theorem strip_strOfInt (n : ℤ) : strip (strOfInt n) = strOfInt n := by
  have hdigit : ∀ c ∈ Nat.toDigits 10 n.natAbs, isSpace c = false := fun c hc =>
    laws.isSpace_of_isDigit (isDigit_of_mem_digits hc)
  refine stripBy_eq_self ?_
  rcases lt_or_ge n 0 with hneg | hpos
  · rw [strOfInt_neg hneg]
    rintro c (_ | ⟨_, hc⟩)
    · exact laws.isSpace_minus
    · exact hdigit c hc
  · obtain ⟨m, rfl⟩ := Int.eq_ofNat_of_zero_le hpos
    rw [strOfInt_natCast]
    exact hdigit

theorem parseIntRange_shown {minimum maximum n : ℤ} (hn : IsReadable n.natAbs)
    (hrange : minimum ≤ n ∧ n ≤ maximum) :
    parseIntRange minimum maximum (strOfInt n) = .ok (.int n) := by
  simp only [parseIntRange, strip_strOfInt laws, parseInt_strOfInt hn, if_pos hrange]

theorem parseNonzero_shown {n : ℤ} (hn : IsReadable n.natAbs) (hzero : n ≠ 0) :
    parseNonzero (strOfInt n) = .ok n := by
  simp only [parseNonzero, strip_strOfInt laws, parseInt_strOfInt hn, if_neg hzero]

theorem parseArchiveChannelId_shown {n : ℤ} (hn : IsReadable n.natAbs) (hneg : n < 0) :
    parseArchiveChannelId (strOfInt n) = .ok (.int n) := by
  simp only [parseArchiveChannelId, parseNonzero_shown laws hn hneg.ne, if_neg (not_le.2 hneg)]

/-- The amount and the unit of a shown duration are found again. -/
theorem matchDuration_shown (amount : ℕ) {unit : Str × ℕ} (hunit : unit ∈ shownUnits) :
    strip (Nat.toDigits 10 amount ++ ' ' :: unit.1) = Nat.toDigits 10 amount ++ ' ' :: unit.1 ∧
      matchDuration (Nat.toDigits 10 amount ++ ' ' :: unit.1) =
        some (Nat.toDigits 10 amount, some unit.1) := by
  have hunits : ∀ unit ∈ shownUnits, unit.1 ≠ [] ∧ isDurationUnit unit.1 = true := by decide
  obtain ⟨hne, hisUnit⟩ := hunits unit hunit
  have hspace := laws.isSpace_unit unit hunit
  have hdecimal : ∀ c ∈ Nat.toDigits 10 amount, (decimal c).isSome = true := by
    intro c hc
    rw [laws.decimal_of_isDigit c (isDigit_of_mem_digits hc)]
    rfl
  have hblank : (decimal ' ').isSome = false := by
    rw [Bool.eq_false_iff]
    intro hsome
    have halnum := laws.isAlnum_of_decimal ' ' hsome
    rw [laws.isAlnum_of_isSpace ' ' laws.isSpace_blank] at halnum
    cases halnum
  have hstrip : strip (Nat.toDigits 10 amount ++ ' ' :: unit.1) =
      Nat.toDigits 10 amount ++ ' ' :: unit.1 := by
    refine stripBy_of_ends (fun c hc => ?_) fun c hc => ?_
    · rw [List.head?_append_of_ne_nil _ Nat.toDigits_ne_nil] at hc
      exact laws.isSpace_of_isDigit (isDigit_of_mem_digits (List.mem_of_head? hc))
    · have hlast : unit.1.getLast? = some c := by
        rw [List.getLast?_append_of_ne_nil _ (List.cons_ne_nil _ _)] at hc
        rwa [List.getLast?_cons_of_ne_nil hne] at hc
      exact hspace c (List.mem_of_getLast? hlast)
  refine ⟨hstrip, ?_⟩
  -- the digits end at the blank, and the unit begins behind it
  have htake : (Nat.toDigits 10 amount ++ ' ' :: unit.1).takeWhile (fun c => (decimal c).isSome) =
      Nat.toDigits 10 amount := by
    rw [List.takeWhile_append_of_pos hdecimal, List.takeWhile_cons_of_neg (by simp [hblank]),
      List.append_nil]
  have hdrop : (Nat.toDigits 10 amount ++ ' ' :: unit.1).dropWhile (fun c => (decimal c).isSome) =
      ' ' :: unit.1 := by
    rw [List.dropWhile_append_of_pos hdecimal, List.dropWhile_cons_of_neg (by simp [hblank])]
  have hunitText : (' ' :: unit.1).dropWhile isSpace = unit.1 := by
    rw [List.dropWhile_cons_of_pos laws.isSpace_blank]
    cases h : unit.1 with
    | nil => exact absurd h hne
    | cons c cs => rw [List.dropWhile_cons_of_neg (by simp [hspace c (h ▸ List.mem_cons_self)])]
  have hamount : (Nat.toDigits 10 amount).isEmpty = false := by simp
  have hunitNe : unit.1.isEmpty = false := by simpa using hne
  unfold matchDuration
  simp only [hstrip, htake, hdrop, hunitText, hamount, hunitNe, hisUnit, Bool.false_eq_true,
    if_false, if_true]

theorem parseDurationRange_shown {minimum maximum : ℤ} {amount : ℕ} (hamount : IsReadable amount)
    {unit : Str × ℕ} (hunit : unit ∈ shownUnits)
    (hrange : minimum ≤ (amount * unit.2 : ℤ) ∧ (amount * unit.2 : ℤ) ≤ maximum) :
    parseDurationRange minimum maximum (Nat.toDigits 10 amount ++ ' ' :: unit.1) =
      .ok (.int (amount * unit.2)) := by
  have hlookup : ∀ unit ∈ shownUnits, durationUnits.lookup unit.1 = some unit.2 := by decide
  have hread : parseInt (Nat.toDigits 10 amount) = some (amount : ℤ) := by
    rw [← strOfInt_natCast]
    exact parseInt_strOfInt (by simpa using hamount)
  unfold parseDurationRange
  simp only [(matchDuration_shown laws amount hunit).2, hread, Option.getD_some,
    laws.casefold_unit unit hunit, hlookup unit hunit, if_pos hrange]

/-! ### What is read -/

omit laws in
theorem parseIntRange_range {minimum maximum : ℤ} {raw : Str} {value : Json}
    (h : parseIntRange minimum maximum raw = .ok value) :
    ∃ n, value = .int n ∧ minimum ≤ n ∧ n ≤ maximum ∧ IsReadable n.natAbs := by
  unfold parseIntRange at h
  split at h
  · exact absurd h invalid_ne_ok
  · next n hn =>
      split at h
      · next hrange =>
          cases h
          exact ⟨n, rfl, hrange.1, hrange.2, isReadable_of_parseInt hn⟩
      · exact absurd h invalid_ne_ok

omit laws in
theorem parseNonzero_spec {raw : Str} {n : ℤ} (h : parseNonzero raw = .ok n) :
    n ≠ 0 ∧ IsReadable n.natAbs := by
  unfold parseNonzero at h
  split at h
  · cases h
  · next parsed hparsed =>
      split at h
      · cases h
      · next hzero =>
          cases h
          exact ⟨hzero, isReadable_of_parseInt hparsed⟩

omit laws in
theorem parseNonzeroInt_spec {raw : Str} {value : Json} (h : parseNonzeroInt raw = .ok value) :
    ∃ n, value = .int n ∧ n ≠ 0 ∧ IsReadable n.natAbs := by
  unfold parseNonzeroInt at h
  cases hparsed : parseNonzero raw with
  | error error =>
      rw [hparsed] at h
      cases h
  | ok n =>
      rw [hparsed] at h
      cases h
      exact ⟨n, rfl, parseNonzero_spec hparsed⟩

omit laws in
theorem parseArchiveChannelId_spec {raw : Str} {value : Json}
    (h : parseArchiveChannelId raw = .ok value) :
    ∃ n, value = .int n ∧ n < 0 ∧ IsReadable n.natAbs := by
  unfold parseArchiveChannelId at h
  split at h
  · cases h
  · next n hn =>
      split at h
      · exact absurd h invalid_ne_ok
      · next hneg =>
          cases h
          exact ⟨n, rfl, not_le.1 hneg, (parseNonzero_spec hn).2⟩

omit laws in
theorem parseDurationRange_range {minimum maximum : ℤ} {raw : Str} {value : Json}
    (h : parseDurationRange minimum maximum raw = .ok value) :
    ∃ n, value = .int n ∧ minimum ≤ n ∧ n ≤ maximum := by
  unfold parseDurationRange at h
  split at h
  · exact absurd h invalid_ne_ok
  · split at h
    · cases h
    · split at h
      · cases h
      · split at h
        · next hrange =>
            cases h
            exact ⟨_, rfl, hrange.1, hrange.2⟩
        · exact absurd h invalid_ne_ok

omit laws in
theorem parseBlockId_spec {raw : Str} {value : Json} (h : parseBlockId raw = .ok value) :
    ∃ text, value = .str text ∧ isBlockId text = true ∧ text = strip raw := by
  unfold parseBlockId at h
  split at h
  · next hblock =>
      cases h
      exact ⟨_, rfl, hblock, rfl⟩
  · exact absurd h invalid_ne_ok

omit laws in
/-- What `_parse_https_url` returns is what it splits. -/
theorem parseHttpsUrl_eq [PythonLibrary] {raw : Str} {value : Json}
    (h : parseHttpsUrl raw = .ok value) : value = .str ((strip raw).rdropWhile (· = '/')) ∧
      ∀ raw', (strip raw').rdropWhile (· = '/') = (strip raw).rdropWhile (· = '/') →
        parseHttpsUrl raw' = .ok value := by
  have hvalue : value = .str ((strip raw).rdropWhile (· = '/')) := by
    unfold parseHttpsUrl at h
    dsimp only at h
    split at h
    · cases h
    · split at h
      · exact absurd h invalid_ne_ok
      · split at h
        · exact absurd h invalid_ne_ok
        · split at h
          · exact absurd h invalid_ne_ok
          · cases h
            rfl
  refine ⟨hvalue, fun raw' hsame => ?_⟩
  rw [← h]
  unfold parseHttpsUrl
  rw [hsame]

/-! ### The round trip of a value -/

omit laws in
theorem strip_idem (text : Str) : strip (strip text) = strip text := by
  refine stripBy_of_ends (fun c hc => (head?_stripBy hc).1) fun c hc => ?_
  have hne : (text.dropWhile isSpace).rdropWhile isSpace ≠ [] := by
    intro hnil
    have hc : ((text.dropWhile isSpace).rdropWhile isSpace).getLast? = some c := hc
    rw [hnil] at hc
    cases hc
  have hlast := List.rdropWhile_last_not isSpace (text.dropWhile isSpace) hne
  have hc : ((text.dropWhile isSpace).rdropWhile isSpace).getLast? = some c := hc
  rw [List.getLast?_eq_some_getLast hne] at hc
  rw [← Option.some.inj hc]
  simpa using hlast

omit laws in
/-- A duration is shown as an amount of a unit. -/
theorem formatDuration_spec {n : ℤ} (hn : 0 ≤ n) : ∃ amount : ℕ, ∃ unit ∈ shownUnits,
    formatDuration (.int n) = some (Nat.toDigits 10 amount ++ ' ' :: unit.1) ∧
      (amount * unit.2 : ℤ) = n := by
  have hamount : ∀ m : ℤ, 0 < m → n % m = 0 →
      strOfInt (n / m) = Nat.toDigits 10 (n / m).toNat ∧ ((n / m).toNat : ℤ) * m = n := by
    intro m hm hmod
    have hcast : ((n / m).toNat : ℤ) = n / m := Int.toNat_of_nonneg (Int.ediv_nonneg hn hm.le)
    refine ⟨?_, ?_⟩
    · rw [← hcast, strOfInt_natCast, Int.toNat_natCast]
    · rw [hcast]
      exact Int.ediv_mul_cancel (Int.dvd_of_emod_eq_zero hmod)
  by_cases hday : n % 86400 = 0
  · obtain ⟨htext, hprod⟩ := hamount 86400 (by decide) hday
    refine ⟨_, ("يوم".toList, 86400), by decide, ?_, hprod⟩
    simp only [formatDuration, intOf, Option.map_some, if_pos hday, htext]
    rfl
  · by_cases hhour : n % 3600 = 0
    · obtain ⟨htext, hprod⟩ := hamount 3600 (by decide) hhour
      refine ⟨_, ("ساعة".toList, 3600), by decide, ?_, hprod⟩
      simp only [formatDuration, intOf, Option.map_some, if_neg hday, if_pos hhour, htext]
      rfl
    · by_cases hminute : n % 60 = 0
      · obtain ⟨htext, hprod⟩ := hamount 60 (by decide) hminute
        refine ⟨_, ("دقيقة".toList, 60), by decide, ?_, hprod⟩
        simp only [formatDuration, intOf, Option.map_some, if_neg hday, if_neg hhour,
          if_pos hminute, htext]
        rfl
      · obtain ⟨htext, hprod⟩ := hamount 1 (by decide) (by omega)
        rw [Int.ediv_one] at htext
        refine ⟨_, ("ثانية".toList, 1), by decide, ?_, hprod⟩
        simp only [formatDuration, intOf, Option.map_some, if_neg hday, if_neg hhour,
          if_neg hminute, htext, Int.ediv_one]
        rfl

/-- A duration within its bounds is read back. -/
theorem duration_shown {minimum maximum default : ℤ} (hmin : 0 ≤ minimum) (hmax : maximum < 1000000)
    (hdefault : minimum ≤ default ∧ default ≤ maximum) {value : Json}
    (hvalue : value = .int default ∨ ∃ raw, parseDurationRange minimum maximum raw = .ok value) :
    ∃ text, formatDuration value = some text ∧ strip text = text ∧
      parseDurationRange minimum maximum text = .ok value := by
  obtain ⟨n, rfl, hrange⟩ : ∃ n, value = .int n ∧ minimum ≤ n ∧ n ≤ maximum := by
    rcases hvalue with rfl | ⟨raw, hraw⟩
    · exact ⟨default, rfl, hdefault⟩
    · exact parseDurationRange_range hraw
  obtain ⟨amount, unit, hunit, htext, hprod⟩ := formatDuration_spec (hmin.trans hrange.1)
  have hpos : ∀ unit ∈ shownUnits, 1 ≤ unit.2 := by decide
  have hreadable : IsReadable amount := by
    have hle : (amount : ℤ) * 1 ≤ amount * unit.2 :=
      Int.mul_le_mul_of_nonneg_left (by exact_mod_cast hpos unit hunit) (by omega)
    have hlt : amount < 10 ^ 6 := by
      have h6 : (10 : ℕ) ^ 6 = 1000000 := rfl
      omega
    have hlength := (Nat.length_toDigits_le_iff (b := 10) (by decide) (by decide)).2 hlt
    exact hlength.trans (by decide)
  refine ⟨_, htext, (matchDuration_shown laws amount hunit).1, ?_⟩
  have hparsed := parseDurationRange_shown laws hreadable hunit (hprod.symm ▸ hrange)
  rw [hprod] at hparsed
  exact hparsed

/-- An identifier is read back. -/
theorem archiveChannelId_shown {value : Json} (hnull : value ≠ .null)
    (hvalue : value = .null ∨ ∃ raw, parseArchiveChannelId raw = .ok value) :
    ∃ text, formatPlain value = some text ∧ strip text = text ∧
      parseArchiveChannelId text = .ok value := by
  obtain ⟨raw, hraw⟩ := hvalue.resolve_left hnull
  obtain ⟨n, rfl, hneg, hn⟩ := parseArchiveChannelId_spec hraw
  exact ⟨_, rfl, strip_strOfInt laws n, parseArchiveChannelId_shown laws hn hneg⟩

omit laws in
/-- A base URL is read back unless it ends in white space. -/
theorem publicBaseUrl_shown [PythonLibrary] {value : Json} (hnull : value ≠ .null)
    (hvalue : value = .null ∨ ∃ raw, parseHttpsUrl raw = .ok value) :
    ∃ text, formatPlain value = some text ∧
      (parseHttpsUrl text = .ok value ↔ strip text = text) := by
  obtain ⟨raw, hraw⟩ := hvalue.resolve_left hnull
  obtain ⟨rfl, hsame⟩ := parseHttpsUrl_eq hraw
  refine ⟨_, rfl, fun hparse => ?_, fun hstrip => hsame _ ?_⟩
  · -- what is read is a part of what is stripped, which is a part of the text
    have heq := Json.str.inj (parseHttpsUrl_eq hparse).1
    generalize (strip raw).rdropWhile (· = '/') = text at heq
    have hbegins : text <+: strip text := by
      nth_rewrite 1 [heq]
      exact List.rdropWhile_prefix _ _
    obtain ⟨a, b, -, htext, -⟩ := strip_split text
    have hlength := congrArg List.length htext
    simp only [List.length_append] at hlength
    exact (hbegins.eq_of_length (by have := hbegins.length_le; omega)).symm
  · rw [hstrip]
    exact List.rdropWhile_idempotent _ _

variable [PythonLibrary]

/-- **A shown value is read back**, unless its text has white space around it; only a base URL
can. -/
theorem parse_shown {definition : SettingDefinition} (hdefinition : definition ∈ settings)
    {value : Json}
    (hnull : value ≠ .null)
    (hvalue : value = definition.default ∨ ∃ raw, definition.parse raw = .ok value)
    {format : Json → Option Str} (hformat : settingFormats.lookup definition.key = some format) :
    ∃ text, format value = some text ∧ (definition.parse text = .ok value ↔ strip text = text) ∧
      (definition.key ≠ "public_base_url".toList → strip text = text) := by
  have hread : (∃ text, format value = some text ∧ strip text = text ∧
      definition.parse text = .ok value) → ∃ text, format value = some text ∧
        (definition.parse text = .ok value ↔ strip text = text) ∧
          (definition.key ≠ "public_base_url".toList → strip text = text) := by
    rintro ⟨text, hshown, hstrip, hparse⟩
    exact ⟨text, hshown, iff_of_true hparse hstrip, fun _ => hstrip⟩
  simp only [settings, List.mem_cons, List.not_mem_nil, or_false] at hdefinition
  rcases hdefinition with rfl | rfl | rfl | rfl | rfl | rfl | rfl | rfl | rfl | rfl
  · cases hformat
    exact hread (duration_shown laws (by decide) (by decide) (by decide) hvalue)
  · cases hformat
    obtain ⟨n, rfl, hmin, hmax, hn⟩ : ∃ n, value = .int n ∧ 1 ≤ n ∧ n ≤ 10 ∧
        IsReadable n.natAbs := by
      rcases hvalue with rfl | ⟨raw, hraw⟩
      · exact ⟨6, rfl, by decide, by decide, by decide +kernel⟩
      · exact parseIntRange_range hraw
    exact hread ⟨_, rfl, strip_strOfInt laws n, parseIntRange_shown laws hn ⟨hmin, hmax⟩⟩
  · cases hformat
  · cases hformat
    exact hread (archiveChannelId_shown laws hnull hvalue)
  · cases hformat
    exact hread (archiveChannelId_shown laws hnull hvalue)
  · cases hformat
    obtain ⟨raw, hraw⟩ := hvalue.resolve_left hnull
    obtain ⟨n, rfl, hzero, hn⟩ := parseNonzeroInt_spec hraw
    refine hread ⟨_, rfl, strip_strOfInt laws n, ?_⟩
    simp only [parseNonzeroInt, parseNonzero_shown laws hn hzero]
    rfl
  · cases hformat
    obtain ⟨text, hshown, hiff⟩ := publicBaseUrl_shown hnull hvalue
    exact ⟨text, hshown, hiff, fun hne => absurd rfl hne⟩
  · cases hformat
    obtain ⟨raw, hraw⟩ := hvalue.resolve_left hnull
    obtain ⟨text, rfl, hblock, rfl⟩ := parseBlockId_spec hraw
    refine hread ⟨_, rfl, strip_idem raw, ?_⟩
    simp only [parseBlockId, strip_idem, if_pos hblock]
  · cases hformat
    exact hread (duration_shown laws (by decide) (by decide) (by decide) hvalue)
  · cases hformat
    exact hread (duration_shown laws (by decide) (by decide) (by decide) hvalue)

end Parsers

/-! ### The round trip of the panel -/

namespace AdminTables

section

variable [UnicodeData] [PythonLibrary] {t t' : AdminTables}

/-- Every stored value has been read from a text. -/
def Sourced (t : AdminTables) : Prop :=
  ∀ definition, getSettingDefinition definition.key = .ok definition →
    ∀ value, t.appSettings definition.key = some value → ∃ raw, definition.parse raw = .ok value

theorem sourced_empty : AdminTables.empty.Sourced := by
  intro definition _ value hvalue
  cases hvalue

/-- What is stored after a change of one row. -/
theorem Sourced.update (ht : t.Sourced) {key : Str} {written : Option Json}
    (hsettings : t'.appSettings = Function.update t.appSettings key written)
    (hwritten : ∀ definition, getSettingDefinition definition.key = .ok definition →
      definition.key = key → ∀ value, written = some value →
        ∃ raw, definition.parse raw = .ok value) :
    t'.Sourced := by
  intro definition hdefinition value hvalue
  rw [hsettings] at hvalue
  by_cases hkey : definition.key = key
  · rw [hkey, Function.update_self] at hvalue
    exact hwritten definition hdefinition hkey value hvalue
  · rw [Function.update_of_ne hkey] at hvalue
    exact ht definition hdefinition value hvalue

/-- **Every call keeps it.** -/
theorem Sourced.step (ht : t.Sourced) (call : AdminCall) : (t.step call).Sourced := by
  have hkept : (t.step call).appSettings = t.appSettings → (t.step call).Sourced := by
    intro hsame definition hdefinition value hvalue
    rw [hsame] at hvalue
    exact ht definition hdefinition value hvalue
  cases t.configStep call with
  | quiet hsettings htemplates haudit => exact hkept hsettings
  | setTemplate ownerUserId definition payload hdefinition hdiffer hsettings htemplates haudit =>
      exact hkept hsettings
  | resetTemplate ownerUserId definition payload hdefinition hstored hsettings htemplates haudit =>
      exact hkept hsettings
  | setSetting ownerUserId definition raw value hdefinition hparse hdiffer hsettings htemplates
      haudit =>
      refine ht.update hsettings fun definition' hdefinition' hkey value' hvalue' => ?_
      cases hvalue'
      rw [hkey] at hdefinition'
      obtain rfl := Except.ok.inj (hdefinition.symm.trans hdefinition')
      exact ⟨raw, hparse⟩
  | resetSetting ownerUserId definition value hdefinition hstored hsettings htemplates haudit =>
      exact ht.update hsettings fun definition' _ _ value' hvalue' => by cases hvalue'

/-- The effective value of a setting is its default, or it has been read from a text and is
stored. -/
theorem Sourced.effective (ht : t.Sourced) (definition : SettingDefinition) {value : Json}
    (hdefinition : getSettingDefinition definition.key = .ok definition)
    (heffective : getSettingEffective t definition.key = .ok value) :
    t.appSettings definition.key = none ∧ value = definition.default ∨
      t.appSettings definition.key = some value ∧ ∃ raw, definition.parse raw = .ok value := by
  rw [getSettingEffective, hdefinition] at heffective
  simp only [Except.map, Except.ok.injEq] at heffective
  cases hstored : t.appSettings definition.key with
  | none =>
      rw [hstored] at heffective
      exact .inl ⟨rfl, heffective.symm⟩
  | some stored =>
      obtain ⟨raw, hparse⟩ := ht definition hdefinition stored hstored
      have hnull := (fits_of_parse (getSettingDefinition_mem hdefinition).1 hparse).1
      rw [hstored] at heffective
      have hvalue : stored = value := by
        cases stored with
        | null => exact absurd rfl hnull
        | _ => exact heffective
      exact .inr ⟨congrArg some hvalue, raw, hvalue ▸ hparse⟩

/-- The owner opens a setting in the panel and sends a text. -/
def sendSetting (t : AdminTables) (ownerUserId : ℤ) (key text : Str) : AdminTransaction :=
  (t.step (.beginEdit ownerUserId "setting".toList key)).perform
    (.applySettingEdit ownerUserId text)

/-- The configuration and its log are the same. -/
def SameConfig (t t' : AdminTables) : Prop :=
  t'.appSettings = t.appSettings ∧ t'.messageTemplates = t.messageTemplates ∧
    t'.adminAuditLog = t.adminAuditLog

/-- A text that is read as the stored value changes nothing, and no other text is answered so. -/
theorem sendSetting_iff {definition : SettingDefinition} (ownerUserId : ℤ) {text : Str}
    {value : Json}
    (hdefinition : getSettingDefinition definition.key = .ok definition)
    (hvalue : (t.appSettings definition.key).getD definition.default = value) :
    (∃ t', t.sendSetting ownerUserId definition.key text =
        .ok (t', .mutation false definition.key (.setting value)) ∧ t.SameConfig t') ↔
      definition.parse text = .ok value := by
  have hbegin : t.step (.beginEdit ownerUserId "setting".toList definition.key) =
      { t with ownerEditSessions :=
          Function.update t.ownerEditSessions ownerUserId (some ⟨.setting, definition.key⟩) } := by
    simp [step, perform, CineGate.beginEdit, editKindOf, validateEditTarget, hdefinition,
      Except.map]
  have hrequire :
      requireEditSession (t.step (.beginEdit ownerUserId "setting".toList definition.key))
        ownerUserId .setting = .ok ⟨.setting, definition.key⟩ := by
    rw [hbegin]
    simp [requireEditSession, validateEditTarget, hdefinition, Except.map]
  have hstored : ((t.step (.beginEdit ownerUserId "setting".toList definition.key)).appSettings
      definition.key).getD definition.default = value := by
    rw [hbegin]
    exact hvalue
  rw [sendSetting, perform, CineGate.applySettingEdit, hrequire]
  simp only [hdefinition, hstored]
  cases hparse : definition.parse text with
  | error error => simp
  | ok parsed =>
      dsimp only
      by_cases hsame : parsed.same value
      · -- the text is read as the stored value: nothing is written
        rw [if_pos hsame]
        constructor
        · rintro ⟨t', hok, -⟩
          simp only [Except.ok.injEq, Prod.mk.injEq, AdminResult.mutation.injEq,
            AuditValue.setting.injEq] at hok
          rw [hok.2.2.2]
        · intro hok
          cases hok
          refine ⟨_, rfl, ?_⟩
          rw [hbegin]
          exact ⟨rfl, rfl, rfl⟩
      · rw [if_neg hsame]
        constructor
        · rintro ⟨t', hok, -⟩
          split at hok <;> cases hok
        · intro hok
          cases hok
          exact absurd (decide_eq_true rfl) hsame

/-- **A shown value changes nothing.**  After every run of calls, when the owner opens a setting
that has a value and sends the text that the panel shows for it, the service answers that the value
has not changed, and neither the configuration nor its log changes; exactly when the text has no
white space around it.  Only a base URL can have it. -/
theorem shown_value_changes_nothing (laws : PanelLaws) (calls : List AdminCall) (ownerUserId : ℤ)
    (definition : SettingDefinition)
    (hdefinition : getSettingDefinition definition.key = .ok definition)
    (value : Json) (hnull : value ≠ .null)
    (heffective : getSettingEffective (Transition.run step .empty calls) definition.key = .ok value)
    (text : Str)
    (hshown : shownSetting (Transition.run step .empty calls) definition.key = some text) :
    ((∃ t', (Transition.run step .empty calls).sendSetting ownerUserId definition.key text =
        .ok (t', .mutation false definition.key (.setting value)) ∧
        (Transition.run step .empty calls).SameConfig t') ↔ strip text = text) ∧
      (definition.key ≠ "public_base_url".toList → strip text = text) := by
  have ht : (Transition.run step .empty calls).Sourced :=
    Transition.run_invariant (fun _ call ht => ht.step call) sourced_empty calls
  generalize Transition.run step .empty calls = t at *
  obtain ⟨hstored, hvalue⟩ : (t.appSettings definition.key).getD definition.default = value ∧
      (value = definition.default ∨ ∃ raw, definition.parse raw = .ok value) := by
    rcases ht.effective definition hdefinition heffective with ⟨hnone, hvalue⟩ | ⟨hsome, hparse⟩
    · rw [hnone]
      exact ⟨hvalue.symm, .inl hvalue⟩
    · rw [hsome]
      exact ⟨rfl, .inr hparse⟩
  obtain ⟨format, hformat, hformatted⟩ := Option.bind_eq_some_iff.1 hshown
  rw [heffective] at hformatted
  obtain ⟨shown, hshown, hiff, hstrip⟩ := parse_shown laws (getSettingDefinition_mem hdefinition).1
    hnull hvalue hformat
  have htext : shown = text := by
    simpa [formatSetting, hnull, hshown, Except.toOption] using hformatted
  subst htext
  exact ⟨(sendSetting_iff ownerUserId hdefinition hstored).trans hiff, hstrip⟩

end

end AdminTables

/-! ### An example -/

/-- The restricted database obeys the laws. -/
theorem UnicodeData.asciiArabic_panelLaws : @PanelLaws UnicodeData.asciiArabic := by
  let _ : UnicodeData := UnicodeData.asciiArabic
  exact ⟨UnicodeData.asciiArabic_laws, by decide, by decide, by decide⟩

/-- Functions of the library that read no float, round half up, and split a URL after its scheme. -/
@[reducible] def PythonLibrary.simple : PythonLibrary where
  parseFloat _ := none
  roundFour x := ((x * 10000 + 1 / 2).floor : ℤ) / 10000
  urlsplit text :=
    let scheme := text.takeWhile (· ≠ ':')
    some ⟨scheme.map Char.toLower, some (text.drop (scheme.length + 3)), none, none, [], []⟩

section

attribute [local instance] UnicodeData.asciiArabic PythonLibrary.simple

/-- Owner 7 has films deleted after two hours, which the panel shows in another way than it was
sent. -/
theorem AdminTables.shown_value_changes_nothing_twoHours :
    let t := Transition.run AdminTables.step .empty
      [.beginEdit 7 "setting".toList "movie_delete_seconds".toList,
        .applySettingEdit 7 "120m".toList]
    ∃ t', t.sendSetting 7 "movie_delete_seconds".toList "2 ساعة".toList =
        .ok (t', .mutation false "movie_delete_seconds".toList (.setting (.int 7200))) ∧
      t.SameConfig t' :=
  (AdminTables.shown_value_changes_nothing UnicodeData.asciiArabic_panelLaws
    [.beginEdit 7 "setting".toList "movie_delete_seconds".toList,
      .applySettingEdit 7 "120m".toList]
    7 ⟨"movie_delete_seconds".toList, .int 120, parseDurationRange 5 172000⟩ rfl (.int 7200)
    (by decide) rfl "2 ساعة".toList rfl).1.2 (by decide)

end

end CineGate
