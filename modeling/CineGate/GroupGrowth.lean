/-
**One more message at the end of a stream.**

A poster opens a new window behind the others; any other message joins the last window, if there is
one, and its group feeds it.  What a group has accepted does not depend on how many diagnostics it
keeps, and every accepted quality comes from a candidate of its window that scored enough.

* `movieWindows_opened`, `movieWindows_of_none` — a stream at its last poster;
* `GroupBuilder.qualities_grow_limit` — the diagnostic limit does not matter;
* `Accepts`, `GroupBuilder.accepts_of_mem_grow` — where an accepted quality comes from;
* `ArchiveParser.windowItems`, `ArchiveParser.windowItems_snoc` — what the group of a window has
  accepted, and after one more message.
-/

import CineGate.GroupingLoop

set_option relaxedAutoImplicit false
set_option autoImplicit false

namespace CineGate

section

variable [UnicodeData]

/-! ### The last window -/

theorem segment_of_none {ms : List ArchiveMessage} (h : ∀ m ∈ ms, detectPoster m = none) :
    segment ms = ms := by
  refine List.takeWhile_eq_self_iff.2 fun m hm => ?_
  rw [h m hm]
  rfl

/-- A segment ends before a poster, whatever follows. -/
theorem segment_append_poster {pre rest : List ArchiveMessage} {m : ArchiveMessage}
    {poster : PosterCandidate} (hposter : detectPoster m = some poster) :
    segment (pre ++ m :: rest) = segment pre := by
  induction pre with
  | nil => exact segment_cons_of_poster hposter
  | cons m' pre ih =>
      rw [List.cons_append]
      cases hposter' : detectPoster m' with
      | none => rw [segment_cons_of_none hposter', segment_cons_of_none hposter', ih]
      | some poster' => rw [segment_cons_of_poster hposter', segment_cons_of_poster hposter']

theorem movieWindows_of_none {ms : List ArchiveMessage} (h : ∀ m ∈ ms, detectPoster m = none) :
    movieWindows ms = [] := by
  induction ms with
  | nil => rfl
  | cons m ms ih =>
      rw [movieWindows, h m List.mem_cons_self]
      exact ih fun m' hm' => h m' (List.mem_cons_of_mem m hm')

/-- **The last window**: the last poster and what follows it. -/
theorem movieWindows_opened {pre rest : List ArchiveMessage} {m : ArchiveMessage}
    {poster : PosterCandidate} (hposter : detectPoster m = some poster)
    (hrest : ∀ m ∈ rest, detectPoster m = none) :
    movieWindows (pre ++ m :: rest) = movieWindows pre ++ [(poster, rest)] := by
  induction pre with
  | nil => simp [movieWindows, hposter, segment_of_none hrest, movieWindows_of_none hrest]
  | cons m' pre ih =>
      rw [List.cons_append, movieWindows, movieWindows, ih]
      cases hposter' : detectPoster m' with
      | none => rfl
      | some poster' => simp [segment_append_poster hposter]

/-- A stream has no poster, or it has a last one. -/
theorem lastPoster_cases (ms : List ArchiveMessage) :
    (∀ m ∈ ms, detectPoster m = none) ∨ ∃ pre m poster rest, ms = pre ++ m :: rest ∧
      detectPoster m = some poster ∧ ∀ m ∈ rest, detectPoster m = none := by
  induction ms using List.reverseRecOn with
  | nil => exact .inl fun m hm => by cases hm
  | append_singleton ms m ih =>
      cases hposter : detectPoster m with
      | some poster => exact .inr ⟨ms, m, poster, [], rfl, hposter, fun m hm => by cases hm⟩
      | none =>
          have hlast : ∀ {rest : List ArchiveMessage}, (∀ m ∈ rest, detectPoster m = none) →
              ∀ m' ∈ rest ++ [m], detectPoster m' = none := by
            intro rest hrest m' hm'
            rcases List.mem_append.1 hm' with hm' | hm'
            · exact hrest m' hm'
            · rw [List.mem_singleton.1 hm', hposter]
          rcases ih with hnone | ⟨pre, m₀, poster, rest, rfl, hposter₀, hrest⟩
          · exact .inl (hlast hnone)
          · exact .inr ⟨pre, m₀, poster, rest ++ [m], by simp, hposter₀, hlast hrest⟩

end

/-! ### Diagnostics -/

/-- What is accepted while the group reads its candidates. -/
def Accepts [UnicodeData] (poster : PosterCandidate) (m : ArchiveMessage) (item : ParsedQuality) :
    Prop :=
  ∃ quality distance, detectQuality m = some quality ∧
    acceptThreshold ≤ scoreQuality poster quality distance ∧
    item = {
      messageId := m.messageId, quality := quality.quality, rawCaption := m.caption.getD [],
      rawTitle := quality.rawTitle, normalizedTitle := quality.normalizedTitle,
      year := quality.year,
      confidence := scoreQuality poster quality distance }

namespace GroupBuilder

/-- The group without its diagnostics. -/
def undiagnosed (b : GroupBuilder) : GroupBuilder := { b with diagnostics := [] }

variable {parser : ArchiveParser} {limit limit' : Option ℕ} {b b' : GroupBuilder}

theorem undiagnosed_eq_iff : b.undiagnosed = b'.undiagnosed ↔
    b.poster = b'.poster ∧ b.qualities = b'.qualities ∧
      b.ambiguousCandidates = b'.ambiguousCandidates ∧
        b.messagesSincePoster = b'.messagesSincePoster ∧ b.noiseMessages = b'.noiseMessages := by
  simp [undiagnosed]

theorem undiagnosed_accept (h : b.undiagnosed = b'.undiagnosed) (parsed : ParsedQuality) :
    (b.accept limit parsed).undiagnosed = (b'.accept limit' parsed).undiagnosed := by
  obtain ⟨hposter, hqualities, hambiguous, hsince, -⟩ := undiagnosed_eq_iff.1 h
  unfold accept
  rw [hqualities]
  split
  · simp [undiagnosed, hposter, hambiguous, hsince]
  · split
    · simp [undiagnosed, hposter, hambiguous, hsince]
    · simp [undiagnosed, hposter, hambiguous, hsince]

section

variable [UnicodeData] {m : ArchiveMessage} {ms : List ArchiveMessage}

theorem undiagnosed_feedOpen (h : b.undiagnosed = b'.undiagnosed) :
    (b.feedOpen parser limit m).undiagnosed = (b'.feedOpen parser limit' m).undiagnosed := by
  obtain ⟨hposter, hqualities, hambiguous, hsince, hnoise⟩ := undiagnosed_eq_iff.1 h
  unfold feedOpen isClosed
  rw [hnoise]
  split
  · exact h
  · unfold feed
    cases detectQuality m with
    | none =>
        exact undiagnosed_eq_iff.2 ⟨hposter, hqualities, hambiguous, by simp [addNoise, hsince],
        by simp [addNoise, hnoise]⟩
    | some quality =>
        unfold addQuality
        simp only [hsince, hposter]
        split
        · have hcounted : ({ b with messagesSincePoster := b'.messagesSincePoster + 1 } :
              GroupBuilder).undiagnosed =
                ({ b' with messagesSincePoster := b'.messagesSincePoster + 1 } :
                  GroupBuilder).undiagnosed :=
            undiagnosed_eq_iff.2 ⟨hposter, hqualities, hambiguous, rfl, hnoise⟩
          rw [hposter] at hcounted
          exact undiagnosed_accept hcounted _
        · split
          · exact undiagnosed_eq_iff.2 ⟨rfl, hqualities, by simp [hambiguous], rfl, hnoise⟩
          · exact undiagnosed_eq_iff.2 ⟨rfl, hqualities, hambiguous, rfl, hnoise⟩

theorem undiagnosed_grow (h : b.undiagnosed = b'.undiagnosed) :
    (b.grow parser limit ms).undiagnosed = (b'.grow parser limit' ms).undiagnosed := by
  induction ms generalizing b b' with
  | nil => exact h
  | cons m ms ih => exact ih (undiagnosed_feedOpen h)

/-- **What is accepted does not depend on the diagnostics that are kept.** -/
theorem qualities_grow_limit :
    (b.grow parser limit ms).qualities = (b.grow parser limit' ms).qualities :=
  (undiagnosed_eq_iff.1 (undiagnosed_grow rfl)).2.1

/-! ### One more message -/

/-- A message leaves the accepted qualities as they are, or it is accepted itself. -/
theorem qualities_feedOpen_cases :
    (b.feedOpen parser limit m).qualities = b.qualities ∨ ∃ item, Accepts b.poster m item ∧
      (b.feedOpen parser limit m).qualities = (b.accept limit item).qualities := by
  unfold feedOpen
  split
  · exact .inl rfl
  · unfold feed
    cases hquality : detectQuality m with
    | none => exact .inl rfl
    | some quality =>
        have hmessage : quality.message = m := message_of_detectQuality hquality
        unfold addQuality
        dsimp only
        split
        · next hscore =>
            refine .inr ⟨_, ⟨quality, b.messagesSincePoster + 1, hquality, hscore, rfl⟩, ?_⟩
            rw [hmessage]
            unfold accept
            dsimp only
            split
            · rfl
            · split <;> rfl
        · split
          · exact .inl rfl
          · exact .inl rfl

omit [UnicodeData] in
/-- What is newer than everything accepted takes the place of its resolution. -/
theorem qualities_accept {item : ParsedQuality}
    (hnewer : ∀ item' ∈ b.qualities, item'.messageId < item.messageId) :
    (b.accept limit item).qualities = setQuality b.qualities item := by
  unfold accept
  split
  · rfl
  · next previous hprevious =>
      rw [if_pos (hnewer previous (List.mem_of_find?_eq_some hprevious))]

omit [UnicodeData] in
theorem mem_setQuality {qualities : List ParsedQuality} {item item' : ParsedQuality}
    (h : item' ∈ setQuality qualities item) : item' = item ∨ item' ∈ qualities := by
  unfold setQuality at h
  split at h
  · obtain ⟨item₀, hitem₀, hitem'⟩ := List.mem_map.1 h
    split at hitem'
    · exact .inl hitem'.symm
    · exact .inr (hitem' ▸ hitem₀)
  · rcases List.mem_append.1 h with h | h
    · exact .inr h
    · exact .inl (List.mem_singleton.1 h)

omit [UnicodeData] in
theorem mem_setQuality_self {qualities : List ParsedQuality} {item : ParsedQuality} :
    item ∈ setQuality qualities item := by
  unfold setQuality
  split
  · next hany =>
      obtain ⟨item₀, hitem₀, hquality⟩ := List.any_eq_true.1 hany
      exact List.mem_map.2 ⟨item₀, hitem₀, if_pos (by simpa using hquality)⟩
  · exact List.mem_append_right _ List.mem_cons_self

omit [UnicodeData] in
theorem mem_accept {item item' : ParsedQuality} (h : item' ∈ (b.accept limit item).qualities) :
    item' = item ∨ item' ∈ b.qualities := by
  unfold accept at h
  split at h
  · exact mem_setQuality h
  · split at h
    · exact mem_setQuality h
    · exact .inr h

/-- **Where an accepted quality comes from**: a candidate of the window that scored enough. -/
theorem accepts_of_mem_grow {item : ParsedQuality} (h : item ∈ (b.grow parser limit ms).qualities) :
    item ∈ b.qualities ∨ ∃ m ∈ ms, Accepts b.poster m item := by
  induction ms generalizing b with
  | nil => exact .inl h
  | cons m ms ih =>
      rcases ih h with hfed | ⟨m', hm', haccepts⟩
      · have hcases : (b.feedOpen parser limit m).qualities = b.qualities ∨ _ :=
          qualities_feedOpen_cases
        rcases hcases with hsame | ⟨item', haccepts, haccept⟩
        · exact .inl (hsame ▸ hfed)
        · rw [haccept] at hfed
          rcases mem_accept hfed with rfl | hmem
          · exact .inr ⟨m, List.mem_cons_self, haccepts⟩
          · exact .inl hmem
      · rw [poster_feedOpen] at haccepts
        exact .inr ⟨m', List.mem_cons_of_mem m hm', haccepts⟩

end

end GroupBuilder

/-! ### The items of a window -/

section

variable [UnicodeData] {parser : ArchiveParser} {limit : Option ℕ}

/-- What the group of a window has accepted, in the order of its dictionary. -/
def ArchiveParser.windowItems (parser : ArchiveParser)
    (window : PosterCandidate × List ArchiveMessage) : List ParsedQuality :=
  (({ poster := window.1 } : GroupBuilder).grow parser none window.2).qualities

theorem ArchiveParser.qualities_groupOf (window : PosterCandidate × List ArchiveMessage) :
    (parser.groupOf limit window).qualities.Perm (parser.windowItems window) := by
  have hlimit : (({ poster := window.1 } : GroupBuilder).grow parser limit window.2).qualities =
      parser.windowItems window := GroupBuilder.qualities_grow_limit
  rw [← hlimit]
  exact List.perm_insertionSort qualityLe _

theorem ArchiveParser.status_groupOf (window : PosterCandidate × List ArchiveMessage) :
    (parser.groupOf none window).status = .indexed ↔ parser.windowItems window ≠ [] := by
  rw [groupOf, finalizeGroup, windowItems]
  dsimp only
  cases (({ poster := window.1 } : GroupBuilder).grow parser none window.2).qualities with
  | nil =>
      simp only [List.isEmpty_nil, Bool.not_true, Bool.false_eq_true, if_false, ne_eq,
        not_true_eq_false, iff_false]
      split <;> simp
  | cons item items => simp

/-- An item was accepted from a message of the window. -/
theorem ArchiveParser.accepts_of_mem_windowItems {window : PosterCandidate × List ArchiveMessage}
    {item : ParsedQuality} (h : item ∈ parser.windowItems window) :
    ∃ m ∈ window.2, Accepts window.1 m item := by
  rcases GroupBuilder.accepts_of_mem_grow h with hnil | haccepts
  · cases hnil
  · exact haccepts

theorem messageId_of_accepts {poster : PosterCandidate} {m : ArchiveMessage} {item : ParsedQuality}
    (h : Accepts poster m item) : item.messageId = m.messageId := by
  obtain ⟨quality, distance, -, -, rfl⟩ := h
  rfl

/-- What is accepted is a video or a document. -/
theorem mediaKind_of_accepts {poster : PosterCandidate} {m : ArchiveMessage} {item : ParsedQuality}
    (h : Accepts poster m item) : m.mediaKind = .video ∨ m.mediaKind = .document := by
  obtain ⟨quality, distance, hquality, -, -⟩ := h
  exact (detectQuality_eq_some hquality).1

/-- **One more message**: it changes nothing, or it takes the place of its resolution. -/
theorem ArchiveParser.windowItems_snoc {poster : PosterCandidate} {ms : List ArchiveMessage}
    {m : ArchiveMessage} (hnewer : ∀ m' ∈ ms, m'.messageId < m.messageId) :
    parser.windowItems (poster, ms ++ [m]) = parser.windowItems (poster, ms) ∨
      ∃ item, Accepts poster m item ∧ parser.windowItems (poster, ms ++ [m]) =
        setQuality (parser.windowItems (poster, ms)) item := by
  rw [windowItems, windowItems, GroupBuilder.grow_append, GroupBuilder.grow_cons,
    GroupBuilder.grow_nil]
  rcases GroupBuilder.qualities_feedOpen_cases with hsame | ⟨item, haccepts, haccept⟩
  · exact .inl hsame
  · rw [GroupBuilder.poster_grow] at haccepts
    refine .inr ⟨item, haccepts, haccept.trans ?_⟩
    refine GroupBuilder.qualities_accept fun item' hitem' => ?_
    have hwindow : item' ∈ parser.windowItems (poster, ms) := hitem'
    obtain ⟨m', hm', haccepts'⟩ := accepts_of_mem_windowItems hwindow
    rw [messageId_of_accepts haccepts, messageId_of_accepts haccepts']
    exact hnewer m' hm'

end

end CineGate
