/-
**UTF-16 code units and delimited names.**

Offsets into a text are often counted in UTF-16 code units and not in code points.  Here a text is
coded by its units, and the tokens are names between two delimiters, such as `%name%`.  When
delimiters and names are made of code points below the surrogates, a text and its units have the
same tokens.

* `TokenMatcher.delimited` — names between delimiters;
* `Utf16.units` — the code units of a text;
* `Utf16.segments_units` — reading the units and coding what is read is the same.
-/

import CineGate.Segments
import Mathlib.Data.List.TakeWhile

set_option relaxedAutoImplicit false
set_option autoImplicit false

universe u

namespace TokenMatcher

variable {α : Type u} (delimiter name : α → Bool)

/-- The length of a delimiter, one or more name symbols and a delimiter at the head of a text. -/
def delimitedLength : List α → Option ℕ
  | [] => none
  | c :: cs =>
      if delimiter c && !(cs.takeWhile name).isEmpty && (cs.dropWhile name).head?.any delimiter then
        some ((cs.takeWhile name).length + 2)
      else none

variable {delimiter name}

theorem delimitedLength_cons {c : α} {cs : List α} {n : ℕ} :
    delimitedLength delimiter name (c :: cs) = some n ↔
      (delimiter c && !(cs.takeWhile name).isEmpty && (cs.dropWhile name).head?.any delimiter) ∧
        n = (cs.takeWhile name).length + 2 := by
  simp only [delimitedLength]
  split
  · next h =>
      rw [Option.some_inj, and_iff_right h]
      exact eq_comm
  · next h => exact ⟨fun hnone => (by cases hnone), fun hsome => absurd hsome.1 h⟩

theorem delimitedLength_pos {text : List α} {n : ℕ}
    (h : delimitedLength delimiter name text = some n) : 0 < n := by
  cases text with
  | nil => cases h
  | cons c cs =>
      obtain ⟨-, rfl⟩ := delimitedLength_cons.1 h
      exact Nat.succ_pos _

theorem delimitedLength_le {text : List α} {n : ℕ}
    (h : delimitedLength delimiter name text = some n) : n ≤ text.length := by
  cases text with
  | nil => cases h
  | cons c cs =>
      obtain ⟨hcond, rfl⟩ := delimitedLength_cons.1 h
      have hlen := congrArg List.length (List.takeWhile_append_dropWhile (p := name) (l := cs))
      rw [List.length_append] at hlen
      cases hdrop : cs.dropWhile name with
      | nil => simp [hdrop] at hcond
      | cons d rest =>
          rw [hdrop, List.length_cons] at hlen
          rw [List.length_cons]
          omega

/-- A token is found wherever the text has all of it: either the name ends in the text, or both
sides ask for more than there is. -/
theorem delimitedLength_append {x y : List α} {n : ℕ} (hn : n ≤ x.length) :
    delimitedLength delimiter name (x ++ y) = some n ↔
      delimitedLength delimiter name x = some n := by
  cases x with
  | nil =>
      have hzero : n = 0 := Nat.le_zero.1 hn
      refine ⟨fun h => ?_, fun h => by cases h⟩
      have hpos := delimitedLength_pos h
      omega
  | cons c cs =>
      rw [List.cons_append, delimitedLength_cons, delimitedLength_cons]
      cases hdrop : cs.dropWhile name with
      | nil =>
          have hall : cs.takeWhile name = cs := by
            have h := List.takeWhile_append_dropWhile (p := name) (l := cs)
            rwa [hdrop, List.append_nil] at h
          have htake : (cs ++ y).takeWhile name = cs ++ y.takeWhile name := by
            rw [List.takeWhile_append, if_pos (by rw [hall])]
          rw [htake, List.length_append]
          rw [List.length_cons] at hn
          refine ⟨fun ⟨_, h⟩ => ?_, fun ⟨h, _⟩ => ?_⟩
          · omega
          · simp at h
      | cons d rest =>
          have hshort : (cs.takeWhile name).length ≠ cs.length := by
            have h := congrArg List.length (List.takeWhile_append_dropWhile (p := name) (l := cs))
            rw [List.length_append, hdrop, List.length_cons] at h
            omega
          rw [List.takeWhile_append, if_neg hshort, List.dropWhile_append, hdrop]
          rfl

/-- A token has delimiters and name symbols only. -/
theorem delimitedLength_mem {text : List α} {n : ℕ}
    (h : delimitedLength delimiter name text = some n) :
    ∀ c ∈ text.take n, delimiter c = true ∨ name c = true := by
  cases text with
  | nil => cases h
  | cons c cs =>
      obtain ⟨hcond, rfl⟩ := delimitedLength_cons.1 h
      rw [Bool.and_eq_true, Bool.and_eq_true] at hcond
      obtain ⟨⟨hc, -⟩, hend⟩ := hcond
      have hsplit := List.takeWhile_append_dropWhile (p := name) (l := cs)
      cases hdrop : cs.dropWhile name with
      | nil =>
          rw [hdrop] at hend
          cases hend
      | cons d rest =>
          rw [hdrop] at hsplit hend
          have htake : ∀ word, word ++ d :: rest = cs →
              (c :: cs).take (word.length + 2) = c :: (word ++ [d]) := by
            rintro word rfl
            rw [List.take_succ_cons, List.take_length_add_append]
            rfl
          rw [htake _ hsplit]
          intro c' hc'
          rcases List.mem_cons.1 hc' with rfl | hc'
          · exact .inl hc
          · rcases List.mem_append.1 hc' with hc' | hc'
            · exact .inr (by simpa using List.mem_takeWhile_imp hc')
            · cases List.mem_singleton.1 hc'
              exact .inl hend

variable (delimiter name) in
/-- Names between two delimiters. -/
def delimited : TokenMatcher α where
  length? := delimitedLength delimiter name
  pos := delimitedLength_pos
  le := delimitedLength_le
  local_iff := delimitedLength_append

end TokenMatcher

namespace Utf16

/-- The code units of a code point. -/
def encode (c : Char) : List ℕ :=
  if c.toNat < 0x10000 then [c.toNat]
  else [0xD800 + (c.toNat - 0x10000) / 0x400, 0xDC00 + (c.toNat - 0x10000) % 0x400]

/-- The code units of a text. -/
def units (text : List Char) : List ℕ := text.flatMap encode

@[simp] theorem units_nil : units [] = [] := rfl

@[simp] theorem units_cons (c : Char) (text : List Char) :
    units (c :: text) = encode c ++ units text := rfl

@[simp] theorem units_append (x y : List Char) : units (x ++ y) = units x ++ units y :=
  List.flatMap_append

/-- A code point is one unit, or two units that are surrogates. -/
theorem encode_cases (c : Char) :
    encode c = [c.toNat] ∨
      0x10000 ≤ c.toNat ∧ ∃ high low, encode c = [high, low] ∧ 0xD800 ≤ high ∧ 0xD800 ≤ low := by
  unfold encode
  split
  · exact .inl rfl
  · next h =>
      refine .inr ⟨Nat.le_of_not_lt h, _, _, rfl, Nat.le_add_right _ _, ?_⟩
      exact Nat.le_trans (by decide) (Nat.le_add_right 0xDC00 _)

theorem units_eq_nil {text : List Char} : units text = [] ↔ text = [] := by
  cases text with
  | nil => simp
  | cons c text =>
      rw [units_cons]
      rcases encode_cases c with h | ⟨-, high, low, h, -⟩ <;> simp [h]

section Names

variable {p : ℕ → Bool} (hp : ∀ u, p u = true → u < 0xD800)
include hp

theorem encode_of_name {c : Char} (hc : p c.toNat = true) : encode c = [c.toNat] := by
  rcases encode_cases c with h | ⟨hbig, -⟩
  · exact h
  · have hsmall := hp _ hc
    omega

/-- A symbol that is not a name symbol has no name symbol as its first unit. -/
theorem head_encode {c : Char} (hc : p c.toNat = false) :
    ∃ u us, encode c = u :: us ∧ p u = false := by
  rcases encode_cases c with h | ⟨-, high, low, h, hhigh, -⟩
  · exact ⟨c.toNat, [], h, hc⟩
  · refine ⟨high, [low], h, Bool.eq_false_iff.2 fun hname => ?_⟩
    have hsmall := hp _ hname
    omega

theorem takeWhile_units (text : List Char) :
    (units text).takeWhile p = units (text.takeWhile fun c => p c.toNat) := by
  induction text with
  | nil => rfl
  | cons c text ih =>
      cases hc : p c.toNat with
      | true =>
          rw [List.takeWhile_cons_of_pos (p := fun c : Char => p c.toNat) hc, units_cons,
            units_cons, encode_of_name hp hc, List.singleton_append,
            List.takeWhile_cons_of_pos hc, ih]
          rfl
      | false =>
          obtain ⟨u, us, hu, hname⟩ := head_encode hp hc
          rw [List.takeWhile_cons_of_neg (p := fun c : Char => p c.toNat) (by simp [hc]),
            units_cons, hu, List.cons_append, List.takeWhile_cons_of_neg (by simp [hname])]
          rfl

theorem dropWhile_units (text : List Char) :
    (units text).dropWhile p = units (text.dropWhile fun c => p c.toNat) := by
  have hunits := List.takeWhile_append_dropWhile (p := p) (l := units text)
  have htext := congrArg units
    (List.takeWhile_append_dropWhile (p := fun c : Char => p c.toNat) (l := text))
  rw [units_append, ← takeWhile_units hp] at htext
  exact List.append_cancel_left (hunits.trans htext.symm)

theorem head?_units (text : List Char) :
    (units text).head?.any p = text.head?.any fun c => p c.toNat := by
  cases text with
  | nil => rfl
  | cons c text =>
      cases hc : p c.toNat with
      | true =>
          rw [units_cons, encode_of_name hp hc]
          simp [hc]
      | false =>
          obtain ⟨u, us, hu, hname⟩ := head_encode hp hc
          rw [units_cons, hu]
          simp [hc, hname]

/-- A text of name symbols has as many units as symbols. -/
theorem length_units {text : List Char} (htext : ∀ c ∈ text, p c.toNat = true) :
    (units text).length = text.length := by
  induction text with
  | nil => rfl
  | cons c text ih =>
      rw [units_cons, encode_of_name hp (htext c List.mem_cons_self), List.length_append,
        ih fun c' hc' => htext c' (List.mem_cons_of_mem _ hc'), List.length_cons, Nat.add_comm]
      rfl

end Names

section Delimited

variable {delimiter name : ℕ → Bool}

/-- The delimited names of a text. -/
def names (delimiter name : ℕ → Bool) : TokenMatcher Char :=
  .delimited (fun c => delimiter c.toNat) fun c => name c.toNat

variable (hdelimiter : ∀ u, delimiter u = true → u < 0xD800)
  (hname : ∀ u, name u = true → u < 0xD800)
include hdelimiter hname

/-- A delimited name has as many units as symbols. -/
theorem length_units_name {text : List Char} {n : ℕ}
    (h : (names delimiter name).length? text = some n) : (units (text.take n)).length = n := by
  rw [length_units (p := fun u => delimiter u || name u)]
  · exact List.length_take_of_le ((names delimiter name).le h)
  · intro u hu
    rcases Bool.or_eq_true_iff.1 hu with hu | hu
    · exact hdelimiter u hu
    · exact hname u hu
  · intro c hc
    exact Bool.or_eq_true_iff.2 (TokenMatcher.delimitedLength_mem h c hc)

/-- The units of a text start with a delimited name exactly when the text does. -/
theorem delimitedLength_units (text : List Char) :
    (TokenMatcher.delimited delimiter name).length? (text.flatMap encode) =
      ((names delimiter name).length? text).map fun n => ((text.take n).flatMap encode).length := by
  cases text with
  | nil => rfl
  | cons c cs =>
      cases hc : delimiter c.toNat with
      | false =>
          obtain ⟨u, us, hu, hhead⟩ := head_encode hdelimiter hc
          have hnone : TokenMatcher.delimitedLength delimiter name (u :: (us ++ units cs)) =
              none := by
            simp [TokenMatcher.delimitedLength, hhead]
          have hnone' : (names delimiter name).length? (c :: cs) = none := by
            simp [names, TokenMatcher.delimited, TokenMatcher.delimitedLength, hc]
          rw [hnone', List.flatMap_cons, hu]
          exact hnone
      | true =>
          have hsymbols : ∀ c ∈ cs.takeWhile fun c => name c.toNat, name c.toNat = true :=
            fun c hc => by simpa using List.mem_takeWhile_imp hc
          have hword := length_units hname hsymbols
          rw [List.flatMap_cons, encode_of_name hdelimiter hc]
          change TokenMatcher.delimitedLength delimiter name (c.toNat :: units cs) = _
          simp only [names, TokenMatcher.delimited, TokenMatcher.delimitedLength, hc, Bool.true_and,
            takeWhile_units hname, dropWhile_units hname, head?_units hdelimiter, hword]
          have hempty : (units (cs.takeWhile fun c => name c.toNat)).isEmpty =
              (cs.takeWhile fun c => name c.toNat).isEmpty := by
            rw [Bool.eq_iff_iff, List.isEmpty_iff_length_eq_zero, List.isEmpty_iff_length_eq_zero,
              hword]
          rw [hempty]
          split
          · next hcond =>
              refine congrArg some (length_units_name hdelimiter hname ?_).symm
              rw [names, TokenMatcher.delimited, TokenMatcher.delimitedLength_cons, hc,
                Bool.true_and]
              exact ⟨hcond, rfl⟩
          · rfl

/-- A delimited name is the text of its units. -/
theorem map_ofNat_units_name {text : List Char}
    (h : (names delimiter name).length? text = some text.length) :
    (units text).map Char.ofNat = text := by
  have hsmall : ∀ c ∈ text, delimiter c.toNat = true ∨ name c.toNat = true := by
    have hmem := TokenMatcher.delimitedLength_mem h
    rwa [List.take_length] at hmem
  clear h
  induction text with
  | nil => rfl
  | cons c text ih =>
      have hencode : encode c = [c.toNat] := by
        rcases hsmall c List.mem_cons_self with hc | hc
        · exact encode_of_name hdelimiter hc
        · exact encode_of_name hname hc
      rw [units_cons, hencode, List.singleton_append, List.map_cons, Char.ofNat_toNat,
        ih fun c' hc' => hsmall c' (List.mem_cons_of_mem _ hc')]

/-- Reading the units of a text gives the codes of its segments. -/
theorem segments_units (text : List Char) :
    (TokenMatcher.delimited delimiter name).segments (units text) =
      ((names delimiter name).segments text).flatMap (Segment.encode encode) := by
  refine TokenMatcher.segments_encode (delimitedLength_units hdelimiter hname) (fun c => ?_) text
  rcases encode_cases c with h | ⟨-, high, low, h, -, hlow⟩
  · exact ⟨c.toNat, [], h, fun _ hu => by cases hu⟩
  · refine ⟨high, [low], h, fun u hu rest => ?_⟩
    cases List.mem_singleton.1 hu
    have hnone : delimiter low = false := Bool.eq_false_iff.2 fun hlt => by
      have hsmall := hdelimiter low hlt
      omega
    simp [TokenMatcher.delimited, TokenMatcher.delimitedLength, hnone]

end Delimited

end Utf16
