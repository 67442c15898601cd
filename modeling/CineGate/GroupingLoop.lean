/-
**What the grouping loop computes.**

From one poster to the next the loop of `iter_groups` feeds the messages to the open group until the
group has met too much noise in a row.  The groups of a stream are therefore the groups of its
*windows*: a poster and the messages up to the next one.  Whether a candidate is accepted does not
depend on its distance from the poster, so a message matters to a group by its *effect* alone.

* `GroupBuilder.grow` — a group after the messages of its window;
* `movieWindows`, `ArchiveParser.groupOf` — the windows of a stream and their groups;
* `ArchiveParser.loop_toList`, `ArchiveParser.iterGroups_next` — the loop yields the groups of the
  windows;
* `acceptThreshold_le_scoreQuality` — a candidate is accepted unless its year contradicts the
  poster;
* `Effect`, `GroupBuilder.outline_grow` — the messages and resolutions of a group, from the effects
  of its messages.
-/

import CineGate.ArchiveParser

set_option relaxedAutoImplicit false
set_option autoImplicit false

namespace CineGate

/-! ### One group -/

namespace GroupBuilder

/-- The group has met more noise in a row than the parser bears. -/
def isClosed (parser : ArchiveParser) (b : GroupBuilder) : Bool :=
  parser.maxNoiseMessages < b.noiseMessages

section

variable [UnicodeData]

/-- What a message that is no poster does to an open group. -/
def feed (limit : Option ℕ) (b : GroupBuilder) (m : ArchiveMessage) : GroupBuilder :=
  match detectQuality m with
  | some quality => b.addQuality limit quality
  | none => b.addNoise

/-- A closed group takes nothing in. -/
def feedOpen (parser : ArchiveParser) (limit : Option ℕ) (b : GroupBuilder) (m : ArchiveMessage) :
    GroupBuilder :=
  if b.isClosed parser then b else b.feed limit m

/-- The group after the messages of its window. -/
def grow (parser : ArchiveParser) (limit : Option ℕ) (b : GroupBuilder) (ms : List ArchiveMessage) :
    GroupBuilder :=
  ms.foldl (feedOpen parser limit) b

end

variable {parser : ArchiveParser} {limit : Option ℕ} {b : GroupBuilder}

@[simp] theorem poster_accept (parsed : ParsedQuality) :
    (b.accept limit parsed).poster = b.poster := by
  unfold accept
  split
  · rfl
  · split <;> rfl

@[simp] theorem noiseMessages_accept (parsed : ParsedQuality) :
    (b.accept limit parsed).noiseMessages = 0 := by
  unfold accept
  split
  · rfl
  · split <;> rfl

@[simp] theorem poster_addQuality (quality : QualityCandidate) :
    (b.addQuality limit quality).poster = b.poster := by
  unfold addQuality
  dsimp only
  split
  · rw [poster_accept]
  · split <;> rfl

/-- A candidate closes no group. -/
theorem isClosed_addQuality {quality : QualityCandidate} (h : b.isClosed parser = false) :
    (b.addQuality limit quality).isClosed parser = false := by
  unfold addQuality
  dsimp only
  split
  · simp [isClosed]
  · split <;> exact h

theorem isClosed_poster (poster : PosterCandidate) :
    ({ poster } : GroupBuilder).isClosed parser = false := by
  simp [isClosed]

section

variable [UnicodeData] {m : ArchiveMessage} {ms : List ArchiveMessage}

@[simp] theorem poster_feed : (b.feed limit m).poster = b.poster := by
  unfold feed
  split
  · exact poster_addQuality _
  · rfl

@[simp] theorem poster_feedOpen : (b.feedOpen parser limit m).poster = b.poster := by
  unfold feedOpen
  split
  · rfl
  · exact poster_feed

@[simp] theorem grow_nil : b.grow parser limit [] = b := rfl

@[simp] theorem grow_cons :
    b.grow parser limit (m :: ms) = (b.feedOpen parser limit m).grow parser limit ms := rfl

theorem grow_append (ms' : List ArchiveMessage) :
    b.grow parser limit (ms ++ ms') = (b.grow parser limit ms).grow parser limit ms' :=
  List.foldl_append

theorem feedOpen_of_isClosed (h : b.isClosed parser) : b.feedOpen parser limit m = b := if_pos h

theorem feedOpen_of_open (h : b.isClosed parser = false) :
    b.feedOpen parser limit m = b.feed limit m := by
  simp [feedOpen, h]

theorem grow_of_isClosed (h : b.isClosed parser) : b.grow parser limit ms = b := by
  induction ms with
  | nil => rfl
  | cons m ms ih => rw [grow_cons, feedOpen_of_isClosed h, ih]

@[simp] theorem poster_grow : (b.grow parser limit ms).poster = b.poster := by
  induction ms generalizing b with
  | nil => rfl
  | cons m ms ih => rw [grow_cons, ih, poster_feedOpen]

end

end GroupBuilder

/-! ### Windows -/

theorem GroupStream.next_of_toList {stream : GroupStream} {groups : List ParsedMovieGroup}
    (h : stream.toList = .ok groups) : stream.next = .ok groups.head? := by
  cases stream with
  | done =>
      cases h
      rfl
  | raised error => cases h
  | yielded group rest =>
      rw [toList] at h
      cases hrest : rest.toList with
      | error error =>
          rw [hrest] at h
          cases h
      | ok groups' =>
          rw [hrest] at h
          cases h
          rfl

/-- The message ids ascend from above a bound. -/
def AscendingFrom (bound : ℕ) (ms : List ArchiveMessage) : Prop :=
  (bound :: ms.map ArchiveMessage.messageId).Pairwise (· < ·)

theorem AscendingFrom.tail {bound : ℕ} {m : ArchiveMessage} {ms : List ArchiveMessage}
    (h : AscendingFrom bound (m :: ms)) :
    bound < m.messageId ∧ AscendingFrom m.messageId ms := by
  rw [AscendingFrom, List.map_cons, List.pairwise_cons] at h
  exact ⟨h.1 _ List.mem_cons_self, h.2⟩

section

variable [UnicodeData]

/-- The messages before the next poster. -/
def segment (ms : List ArchiveMessage) : List ArchiveMessage :=
  ms.takeWhile fun m => (detectPoster m).isNone

/-- The posters of a stream with the messages up to the next one. -/
def movieWindows : List ArchiveMessage → List (PosterCandidate × List ArchiveMessage)
  | [] => []
  | m :: ms =>
      match detectPoster m with
      | some poster => (poster, segment ms) :: movieWindows ms
      | none => movieWindows ms

/-- The group of a window. -/
def ArchiveParser.groupOf (parser : ArchiveParser) (limit : Option ℕ)
    (window : PosterCandidate × List ArchiveMessage) : ParsedMovieGroup :=
  finalizeGroup (({ poster := window.1 } : GroupBuilder).grow parser limit window.2)

theorem segment_cons_of_poster {m : ArchiveMessage} {ms : List ArchiveMessage}
    {poster : PosterCandidate} (h : detectPoster m = some poster) : segment (m :: ms) = [] := by
  simp [segment, h]

theorem segment_cons_of_none {m : ArchiveMessage} {ms : List ArchiveMessage}
    (h : detectPoster m = none) : segment (m :: ms) = m :: segment ms := by
  simp [segment, h]

namespace ArchiveParser

variable {parser : ArchiveParser} {limit : Option ℕ}

/-- **The loop yields the groups of the windows**, that of the open group first. -/
theorem loop_toList {ms : List ArchiveMessage} {bound : ℕ} (h : AscendingFrom bound ms) :
    (parser.loop limit none bound ms).toList = .ok ((movieWindows ms).map (parser.groupOf limit)) ∧
      ∀ b : GroupBuilder, b.isClosed parser = false →
        (parser.loop limit (some b) bound ms).toList =
          .ok (finalizeGroup (b.grow parser limit (segment ms)) ::
            (movieWindows ms).map (parser.groupOf limit)) := by
  induction ms generalizing bound with
  | nil => exact ⟨rfl, fun _ _ => rfl⟩
  | cons m ms ih =>
      obtain ⟨hlt, hms⟩ := h.tail
      obtain ⟨ih_none, ih_some⟩ := ih hms
      have horder : ¬ m.messageId ≤ bound := not_le.2 hlt
      cases hposter : detectPoster m with
      | some poster =>
          have ih_poster := ih_some { poster } (GroupBuilder.isClosed_poster poster)
          constructor
          · simp [loop, horder, hposter, movieWindows, groupOf, ih_poster]
          · intro b hopen
            simp [loop, horder, hposter, movieWindows, groupOf, ih_poster, GroupStream.toList,
              segment_cons_of_poster hposter, Except.map]
      | none =>
          constructor
          · simp [loop, horder, hposter, movieWindows, ih_none]
          · intro b hopen
            rw [segment_cons_of_none hposter, GroupBuilder.grow_cons,
              GroupBuilder.feedOpen_of_open hopen]
            cases hquality : detectQuality m with
            | some quality =>
                have hstill : (b.addQuality limit quality).isClosed parser = false :=
                  GroupBuilder.isClosed_addQuality hopen
                simp [loop, horder, hposter, hquality, movieWindows, ih_some _ hstill,
                  GroupBuilder.feed]
            | none =>
                by_cases hclosed : parser.maxNoiseMessages < b.addNoise.noiseMessages
                · -- the noise closes the group; the rest of the window is skipped
                  have hclosed' : b.addNoise.isClosed parser := by
                    simpa [GroupBuilder.isClosed] using hclosed
                  simp [loop, horder, hposter, hquality, movieWindows, hclosed, ih_none,
                    GroupStream.toList, GroupBuilder.feed, GroupBuilder.grow_of_isClosed hclosed',
                    Except.map]
                · have hstill : b.addNoise.isClosed parser = false := by
                    simpa [GroupBuilder.isClosed] using hclosed
                  simp [loop, horder, hposter, hquality, movieWindows, hclosed, ih_some _ hstill,
                    GroupBuilder.feed]

/-- **A lazy caller gets the group of the first window.** -/
theorem iterGroups_next {ms : List ArchiveMessage} (h : AscendingFrom 0 ms)
    (hlimit : limit ≠ some 0) :
    (parser.iterGroups limit ms).next =
      .ok ((movieWindows ms).head?.map (parser.groupOf limit)) := by
  rw [iterGroups, if_neg hlimit, GroupStream.next_of_toList (loop_toList h).1, List.head?_map]

theorem parse_eq {ms : List ArchiveMessage} (h : AscendingFrom 0 ms) :
    parser.parse ms = .ok ((movieWindows ms).map (parser.groupOf none)) := by
  rw [parse, iterGroups, if_neg (by simp), (loop_toList h).1]

end ArchiveParser

/-- Every window of a stream is a poster of the stream and messages of the stream. -/
theorem mem_movieWindows {ms : List ArchiveMessage} {window : PosterCandidate × List ArchiveMessage}
    (h : window ∈ movieWindows ms) :
    (∃ m ∈ ms, detectPoster m = some window.1) ∧ ∀ m ∈ window.2, m ∈ ms := by
  induction ms with
  | nil => cases h
  | cons m ms ih =>
      rw [movieWindows] at h
      split at h
      · next poster hposter =>
          rcases List.mem_cons.1 h with rfl | h
          · exact ⟨⟨m, List.mem_cons_self, hposter⟩, fun m' hm' =>
              List.mem_cons_of_mem m (List.takeWhile_subset _ hm')⟩
          · obtain ⟨⟨m', hm', hposter'⟩, hmem⟩ := ih h
            exact ⟨⟨m', List.mem_cons_of_mem m hm', hposter'⟩,
              fun m'' hm'' => List.mem_cons_of_mem m (hmem m'' hm'')⟩
      · obtain ⟨⟨m', hm', hposter'⟩, hmem⟩ := ih h
        exact ⟨⟨m', List.mem_cons_of_mem m hm', hposter'⟩,
          fun m'' hm'' => List.mem_cons_of_mem m (hmem m'' hm'')⟩

theorem message_of_detectPoster {m : ArchiveMessage} {poster : PosterCandidate}
    (h : detectPoster m = some poster) : poster.message = m := by
  unfold detectPoster at h
  dsimp only at h
  repeat' split at h
  all_goals first | cases h; rfl | cases h

theorem message_of_detectQuality {m : ArchiveMessage} {quality : QualityCandidate}
    (h : detectQuality m = some quality) : quality.message = m := by
  unfold detectQuality at h
  dsimp only at h
  split at h
  · cases h
  · obtain ⟨resolution, -, rfl⟩ := Option.map_eq_some_iff.1 h
    rfl

/-- A candidate is a video or a document whose caption advertises its resolution. -/
theorem detectQuality_eq_some {m : ArchiveMessage} {quality : QualityCandidate}
    (h : detectQuality m = some quality) :
    (m.mediaKind = .video ∨ m.mediaKind = .document) ∧
      extractQuality (boundedCaption m.caption) = some quality.quality := by
  unfold detectQuality at h
  dsimp only at h
  split at h
  · cases h
  · next hkind =>
      obtain ⟨resolution, hresolution, rfl⟩ := Option.map_eq_some_iff.1 h
      refine ⟨?_, hresolution⟩
      by_contra hother
      exact hkind (by simp_all)

/-! ### Acceptance -/

/-- The candidate names another year than the poster. -/
def contradicts (poster : PosterCandidate) (quality : QualityCandidate) : Bool :=
  match poster.year, quality.year with
  | some posterYear, some qualityYear => posterYear ≠ qualityYear
  | _, _ => false

omit [UnicodeData] in
theorem titleBonus_bounds (posterTitle qualityTitle : Str) :
    0 ≤ titleBonus posterTitle qualityTitle ∧ titleBonus posterTitle qualityTitle ≤ 10 := by
  unfold titleBonus
  split_ifs <;> simp

/-- The score before the title is looked at. -/
def yearScore (poster : PosterCandidate) (quality : QualityCandidate) (distance : ℕ) : ℤ :=
  let score : ℤ := if 1 < distance then 80 - min (((distance : ℤ) - 1) * 5) 20 else 80
  match poster.year, quality.year with
  | some posterYear, some qualityYear => if posterYear = qualityYear then score + 10 else score - 35
  | _, _ => score

omit [UnicodeData] in
theorem yearScore_bounds (poster : PosterCandidate) (quality : QualityCandidate) (distance : ℕ) :
    if contradicts poster quality then yearScore poster quality distance ≤ 45
    else 60 ≤ yearScore poster quality distance := by
  unfold yearScore contradicts
  cases poster.year with
  | none =>
      simp only [Bool.false_eq_true, if_false]
      split <;> omega
  | some posterYear =>
      cases quality.year with
      | none =>
          simp only [Bool.false_eq_true, if_false]
          split <;> omega
      | some qualityYear =>
          by_cases hsame : posterYear = qualityYear
          · simp only [hsame, ne_eq, not_true, decide_false, Bool.false_eq_true, if_false, if_true]
            split <;> omega
          · simp only [hsame, ne_eq, not_false_iff, decide_true, if_true, if_false]
            split <;> omega

omit [UnicodeData] in
/-- The title adds between 0 and 10. -/
theorem scoreQuality_eq (poster : PosterCandidate) (quality : QualityCandidate) (distance : ℕ) :
    ∃ bonus : ℤ, 0 ≤ bonus ∧ bonus ≤ 10 ∧ scoreQuality poster quality distance =
      (max 0 (min 100 (yearScore poster quality distance + bonus))).toNat := by
  unfold scoreQuality yearScore
  cases quality.normalizedTitle with
  | none =>
      exact ⟨0, le_rfl, by omega,
        congrArg (fun score : ℤ => (max 0 (min 100 score)).toNat) (Int.add_zero _).symm⟩
  | some title =>
      by_cases hempty : (poster.normalizedTitle.isEmpty || title.isEmpty) = true
      · exact ⟨0, le_rfl, by omega, by
          rw [Int.add_zero]
          exact congrArg (fun score : ℤ => (max 0 (min 100 score)).toNat) (if_pos hempty)⟩
      · obtain ⟨hlow, hhigh⟩ := titleBonus_bounds poster.normalizedTitle title
        exact ⟨_, hlow, hhigh, by simp only [hempty]; rfl⟩

omit [UnicodeData] in
/-- **The distance from the poster and the title decide nothing**: a candidate is accepted unless
its year contradicts the poster. -/
theorem acceptThreshold_le_scoreQuality (poster : PosterCandidate) (quality : QualityCandidate)
    (distance : ℕ) :
    acceptThreshold ≤ scoreQuality poster quality distance ↔
      contradicts poster quality = false := by
  obtain ⟨bonus, hlow, hhigh, hscore⟩ := scoreQuality_eq poster quality distance
  have hyear := yearScore_bounds poster quality distance
  rw [hscore, acceptThreshold]
  cases hcontradicts : contradicts poster quality with
  | true =>
      rw [hcontradicts, if_pos rfl] at hyear
      simp only [Bool.true_eq_false, iff_false, not_le]
      omega
  | false =>
      rw [hcontradicts, if_neg (by simp)] at hyear
      simp only [iff_true]
      omega

/-! ### Effects -/

/-- What a message that is no poster means to the group of a poster. -/
inductive Effect
  | neutral
  | noise
  | accepted (quality : Resolution)
deriving DecidableEq, Repr

/-- The effect of a message: a candidate that is not accepted changes nothing. -/
def effect (poster : PosterCandidate) (m : ArchiveMessage) : Effect :=
  match detectQuality m with
  | none => .noise
  | some quality => if contradicts poster quality then .neutral else .accepted quality.quality

/-- The messages of a group with their resolutions, and the noise since the last one. -/
structure Outline where
  entries : List (ℕ × Resolution) := []
  noise : ℕ := 0
deriving DecidableEq, Repr

/-- A message enters the entries unless a newer one holds its resolution. -/
def putEntry (entries : List (ℕ × Resolution)) (messageId : ℕ) (quality : Resolution) :
    List (ℕ × Resolution) :=
  match entries.find? fun entry => entry.2 = quality with
  | none => entries ++ [(messageId, quality)]
  | some previous =>
      if previous.1 < messageId then
        entries.map fun entry => if entry.2 = quality then (messageId, quality) else entry
      else entries

/-- What a message does to an outline. -/
def Outline.feed (parser : ArchiveParser) (o : Outline) (m : ℕ × Effect) : Outline :=
  if parser.maxNoiseMessages < o.noise then o
  else
    match m.2 with
    | .neutral => o
    | .noise => { o with noise := o.noise + 1 }
    | .accepted quality => { entries := putEntry o.entries m.1 quality, noise := 0 }

/-- The outline of a group. -/
def GroupBuilder.outline (b : GroupBuilder) : Outline where
  entries := b.qualities.map fun item => (item.messageId, item.quality)
  noise := b.noiseMessages

omit [UnicodeData] in
theorem GroupBuilder.outline_accept (limit : Option ℕ) (b : GroupBuilder) (parsed : ParsedQuality) :
    (b.accept limit parsed).outline =
      { entries := putEntry b.outline.entries parsed.messageId parsed.quality, noise := 0 } := by
  have hfind : (b.outline.entries.find? fun entry => entry.2 = parsed.quality) =
      (b.qualities.find? fun item => item.quality = parsed.quality).map
        fun item => (item.messageId, item.quality) := List.find?_map ..
  unfold accept putEntry
  rw [hfind]
  cases hprevious : b.qualities.find? fun item => item.quality = parsed.quality with
  | none =>
      have hnone : ¬ b.qualities.any fun item => item.quality = parsed.quality := by
        simpa using hprevious
      simp [outline, setQuality, hnone]
  | some previous =>
      have hmem := List.mem_of_find?_eq_some hprevious
      have hquality := List.find?_some hprevious
      have hany : b.qualities.any fun item => item.quality = parsed.quality :=
        List.any_eq_true.2 ⟨previous, hmem, hquality⟩
      by_cases hlt : previous.messageId < parsed.messageId
      · simp only [Option.map_some, hlt, if_true, outline, setQuality, hany, List.map_map]
        congr 1
        refine List.map_congr_left fun item _ => ?_
        simp only [Function.comp_apply]
        split <;> simp_all
      · simp [hlt, outline]

/-- The outline of a group after a message. -/
theorem GroupBuilder.outline_feedOpen (parser : ArchiveParser) (limit : Option ℕ) (b : GroupBuilder)
    (m : ArchiveMessage) :
    (b.feedOpen parser limit m).outline =
      b.outline.feed parser (m.messageId, effect b.poster m) := by
  unfold feedOpen feed Outline.feed effect
  by_cases hclosed : parser.maxNoiseMessages < b.noiseMessages
  · simp [isClosed, hclosed, outline]
  · have hopen : b.isClosed parser = false := by simpa [isClosed] using hclosed
    have hopen' : ¬ parser.maxNoiseMessages < b.outline.noise := hclosed
    rw [if_neg (by simp [hopen]), if_neg hopen']
    cases hquality : detectQuality m with
    | none => rfl
    | some quality =>
        have hmessage := message_of_detectQuality hquality
        have hscore := acceptThreshold_le_scoreQuality b.poster quality (b.messagesSincePoster + 1)
        unfold addQuality
        cases hcontradicts : contradicts b.poster quality with
        | true =>
            rw [hcontradicts] at hscore
            have hreject : ¬ acceptThreshold ≤
                scoreQuality b.poster quality (b.messagesSincePoster + 1) := by simpa using hscore
            simp only [hreject, if_false, hcontradicts]
            split <;> rfl
        | false =>
            have haccept := hscore.2 hcontradicts
            simp only [haccept, if_true, hcontradicts, outline_accept, hmessage]
            rfl

/-- **The outline of a group follows from the effects of its messages.** -/
theorem GroupBuilder.outline_grow (parser : ArchiveParser) (limit : Option ℕ) (b : GroupBuilder)
    (ms : List ArchiveMessage) :
    (b.grow parser limit ms).outline =
      (ms.map fun m => (m.messageId, effect b.poster m)).foldl (Outline.feed parser) b.outline := by
  induction ms generalizing b with
  | nil => rfl
  | cons m ms ih =>
      rw [grow_cons, ih, outline_feedOpen, List.map_cons, List.foldl_cons, poster_feedOpen]

namespace Outline

omit [UnicodeData]

variable {parser : ArchiveParser}

theorem feed_neutral (o : Outline) (messageId : ℕ) :
    o.feed parser (messageId, .neutral) = o := by
  unfold feed
  split <;> rfl

theorem feed_of_closed {o : Outline} (h : parser.maxNoiseMessages < o.noise) (m : ℕ × Effect) :
    o.feed parser m = o := if_pos h

/-- An entry is an accepted message. -/
theorem mem_putEntry {entries : List (ℕ × Resolution)} {messageId : ℕ} {quality : Resolution}
    {entry : ℕ × Resolution} (h : entry ∈ putEntry entries messageId quality) :
    entry = (messageId, quality) ∨ entry ∈ entries := by
  unfold putEntry at h
  split at h
  · rcases List.mem_append.1 h with h | h
    · exact .inr h
    · exact .inl (List.mem_singleton.1 h)
  · split at h
    · obtain ⟨entry', hmem, hentry⟩ := List.mem_map.1 h
      split at hentry
      · exact .inl hentry.symm
      · exact .inr (hentry ▸ hmem)
    · exact .inr h

theorem mem_entries_feed {o : Outline} {m : ℕ × Effect} {entry : ℕ × Resolution}
    (h : entry ∈ (o.feed parser m).entries) :
    entry ∈ o.entries ∨ m = (entry.1, .accepted entry.2) := by
  obtain ⟨messageId, eff⟩ := m
  unfold feed at h
  split at h
  · exact .inl h
  · cases eff with
    | neutral => exact .inl h
    | noise => exact .inl h
    | accepted quality =>
        rcases mem_putEntry h with rfl | h
        · exact .inr rfl
        · exact .inl h

theorem mem_entries_foldl {o : Outline} {ms : List (ℕ × Effect)} {entry : ℕ × Resolution}
    (h : entry ∈ (ms.foldl (feed parser) o).entries) :
    entry ∈ o.entries ∨ (entry.1, .accepted entry.2) ∈ ms := by
  induction ms generalizing o with
  | nil => exact .inl h
  | cons m ms ih =>
      rcases ih h with h | h
      · rcases mem_entries_feed h with h | rfl
        · exact .inl h
        · exact .inr List.mem_cons_self
      · exact .inr (List.mem_cons_of_mem m h)

end Outline

/-- The outline of a window. -/
def ArchiveParser.outlineOf (parser : ArchiveParser)
    (window : PosterCandidate × List ArchiveMessage) : Outline :=
  (window.2.map fun m => (m.messageId, effect window.1 m)).foldl (Outline.feed parser) {}

/-- The accepted qualities of a window, without regard to the diagnostics that are kept. -/
theorem ArchiveParser.mem_groupOf_iff {parser : ArchiveParser} {limit : Option ℕ}
    {window : PosterCandidate × List ArchiveMessage} {messageId : ℕ} {quality : Resolution} :
    (∃ item ∈ (parser.groupOf limit window).qualities,
        item.messageId = messageId ∧ item.quality = quality) ↔
      (messageId, quality) ∈ (parser.outlineOf window).entries := by
  have houtline : parser.outlineOf window =
      (({ poster := window.1 } : GroupBuilder).grow parser limit window.2).outline := by
    rw [GroupBuilder.outline_grow]
    rfl
  have hperm : ∀ item, item ∈ (parser.groupOf limit window).qualities ↔
      item ∈ (({ poster := window.1 } : GroupBuilder).grow parser limit window.2).qualities :=
    fun item => (List.perm_insertionSort qualityLe _).mem_iff
  rw [houtline, GroupBuilder.outline, List.mem_map]
  simp only [hperm, Prod.mk.injEq]

/-- An accepted quality is a message of the window that advertises its resolution. -/
theorem ArchiveParser.mem_groupOf {parser : ArchiveParser} {limit : Option ℕ}
    {window : PosterCandidate × List ArchiveMessage} {item : ParsedQuality}
    (h : item ∈ (parser.groupOf limit window).qualities) :
    ∃ m ∈ window.2, m.messageId = item.messageId ∧
      (m.mediaKind = .video ∨ m.mediaKind = .document) ∧
        extractQuality (boundedCaption m.caption) = some item.quality := by
  have hentry := mem_groupOf_iff.1 ⟨item, h, rfl, rfl⟩
  rcases Outline.mem_entries_foldl hentry with hnil | hmem
  · cases hnil
  · obtain ⟨m, hm, heffect⟩ := List.mem_map.1 hmem
    rw [Prod.mk.injEq] at heffect
    obtain ⟨hid, heffect⟩ := heffect
    unfold effect at heffect
    cases hquality : detectQuality m with
    | none => simp [hquality] at heffect
    | some quality =>
        obtain ⟨hkind, hresolution⟩ := detectQuality_eq_some hquality
        cases hcontradicts : contradicts window.1 quality with
        | true => simp [hquality, hcontradicts] at heffect
        | false =>
            simp only [hquality, hcontradicts, Bool.false_eq_true, if_false,
              Effect.accepted.injEq] at heffect
            exact ⟨m, hm, hid, hkind, heffect ▸ hresolution⟩

end

end CineGate
