/-
**The window of a movie in the tables.**

The snapshots of a movie are those of its channel from its poster up to the next poster.  Read in
message order they ascend, so the parser does not raise on them, and the group it finds is the
movie's own exactly when the first of them still is its poster.

* `ArchiveTables.OpensWith` — the messages begin with a given poster of the movie;
* `ArchiveTables.parseMovieGroup_eq_some` — what `_parse_movie_group` returns;
* `ArchiveTables.mem_acceptedQualities` — an accepted quality is a recorded message, not conflicted,
  that advertises its resolution.
-/

import CineGate.GroupingLoop
import CineGate.ArchiveTables

set_option relaxedAutoImplicit false
set_option autoImplicit false

namespace CineGate

/-- In one channel the primary key orders by message. -/
theorem ArchiveMessageSnapshot.messageId_lt {s s' : ArchiveMessageSnapshot} (h : s.key < s'.key)
    (hchannel : s.archiveChannelId = s'.archiveChannelId) : s.messageId < s'.messageId := by
  rcases Prod.Lex.lt_iff.1 h with hlt | ⟨-, hlt⟩
  · exact absurd hchannel hlt.ne
  · exact hlt

namespace ArchiveTables

variable {t : ArchiveTables} {movie : Movie}

/-- Selected snapshots of one channel ascend. -/
theorem ascending_filter {p : ArchiveMessageSnapshot → Bool} {channelId : ℤ}
    (h : ∀ s, p s → s.archiveChannelId = channelId) :
    AscendingFrom 0 ((t.snapshots.rows.filter p).map ArchiveMessageSnapshot.message) := by
  rw [AscendingFrom, List.pairwise_cons, List.map_map]
  constructor
  · intro messageId hmem
    obtain ⟨s, -, rfl⟩ := List.mem_map.1 hmem
    exact s.messageId_pos
  · rw [List.pairwise_map]
    refine (t.snapshots.ordered.filter p).imp_of_mem fun {s s'} hs hs' hlt => ?_
    have hchannel := (h s (List.mem_filter.1 hs).2).trans (h s' (List.mem_filter.1 hs').2).symm
    exact ArchiveMessageSnapshot.messageId_lt hlt hchannel

/-- The condition of `_parse_movie_group` on a snapshot. -/
def inWindow (t : ArchiveTables) (movie : Movie) (through : Option ℕ) (s : ArchiveMessageSnapshot) :
    Bool :=
  s.archiveChannelId = movie.archiveChannelId && movie.posterMessageId ≤ s.messageId &&
    s.messageId < min (t.rangeStop movie) ((t.firstConflict movie).getD bigintMax) &&
      through.all (s.messageId ≤ ·)

theorem movieMessages_eq (through : Option ℕ) : t.movieMessages movie through =
    (t.snapshots.rows.filter (t.inWindow movie through)).map ArchiveMessageSnapshot.message := by
  rw [movieMessages, snapshotsUpTo, List.filter_filter]
  congr 1
  refine List.filter_congr fun s _ => ?_
  rw [inWindow, Bool.and_comm]

theorem ascending_movieMessages (through : Option ℕ) :
    AscendingFrom 0 (t.movieMessages movie through) := by
  rw [movieMessages_eq]
  have hchannel : ∀ s, t.inWindow movie through s →
      s.archiveChannelId = movie.archiveChannelId := by
    intro s hs
    simp only [inWindow, Bool.and_eq_true, decide_eq_true_eq] at hs
    exact hs.1.1.1
  exact ascending_filter hchannel

theorem posterMessageId_le_of_mem {through : Option ℕ} {m : ArchiveMessage}
    (h : m ∈ t.movieMessages movie through) : movie.posterMessageId ≤ m.messageId := by
  rw [movieMessages_eq] at h
  obtain ⟨s, hs, rfl⟩ := List.mem_map.1 h
  have hs := (List.mem_filter.1 hs).2
  simp only [inWindow, Bool.and_eq_true, decide_eq_true_eq] at hs
  exact hs.1.1.2

/-- The snapshot of a message of a window. -/
theorem snapshot_of_mem_movieMessages {through : Option ℕ} {m : ArchiveMessage}
    (h : m ∈ t.movieMessages movie through) :
    ∃ s ∈ t.snapshots, s.archiveChannelId = movie.archiveChannelId ∧ s.message = m := by
  rw [movieMessages_eq] at h
  obtain ⟨s, hs, rfl⟩ := List.mem_map.1 h
  obtain ⟨hs, hwindow⟩ := List.mem_filter.1 hs
  simp only [inWindow, Bool.and_eq_true, decide_eq_true_eq] at hwindow
  exact ⟨s, hs, hwindow.1.1.1, rfl⟩

/-- The messages begin with the poster of the movie. -/
def OpensWith [UnicodeData] (movie : Movie) (ms : List ArchiveMessage) (poster : PosterCandidate)
    (rest : List ArchiveMessage) : Prop :=
  ∃ m, ms = m :: rest ∧ m.messageId = movie.posterMessageId ∧ detectPoster m = some poster

section

variable [UnicodeData] {parser : ArchiveParser}

theorem posterMessageId_groupOf {limit : Option ℕ}
    (window : PosterCandidate × List ArchiveMessage) :
    (parser.groupOf limit window).posterMessageId = window.1.message.messageId := by
  rw [ArchiveParser.groupOf, finalizeGroup, GroupBuilder.poster_grow]

/-- A window of the movie's own poster is the first one, and the messages begin with it. -/
theorem opensWith_of_window {ms : List ArchiveMessage} {bound : ℕ} (hasc : AscendingFrom bound ms)
    (hle : ∀ m ∈ ms, movie.posterMessageId ≤ m.messageId)
    {window : PosterCandidate × List ArchiveMessage} (h : window ∈ movieWindows ms)
    (hposter : window.1.message.messageId = movie.posterMessageId) :
    ∃ rest, OpensWith movie ms window.1 rest ∧ window.2 = segment rest := by
  cases ms with
  | nil => cases h
  | cons m rest =>
      have hlater : window ∉ movieWindows rest := by
        intro hmem
        obtain ⟨⟨m', hm', hposter'⟩, -⟩ := mem_movieWindows hmem
        have hlt : m.messageId < m'.messageId := by
          have hrest := hasc.tail.2
          rw [AscendingFrom, List.pairwise_cons] at hrest
          exact hrest.1 _ (List.mem_map_of_mem hm')
        have hm := hle m List.mem_cons_self
        rw [message_of_detectPoster hposter'] at hposter
        omega
      rw [movieWindows] at h
      cases hdetect : detectPoster m with
      | none =>
          rw [hdetect] at h
          exact absurd h hlater
      | some poster =>
          rw [hdetect] at h
          rcases List.mem_cons.1 h with rfl | h
          · refine ⟨rest, ⟨m, rfl, ?_, hdetect⟩, rfl⟩
            rw [← hposter, message_of_detectPoster hdetect]
          · exact absurd h hlater

theorem OpensWith.movieWindows {ms rest : List ArchiveMessage} {poster : PosterCandidate}
    (h : OpensWith movie ms poster rest) :
    movieWindows ms = (poster, segment rest) :: CineGate.movieWindows rest := by
  obtain ⟨m, rfl, -, hposter⟩ := h
  simp [CineGate.movieWindows, hposter]

theorem OpensWith.posterMessageId {ms rest : List ArchiveMessage} {poster : PosterCandidate}
    (h : OpensWith movie ms poster rest) : poster.message.messageId = movie.posterMessageId := by
  obtain ⟨m, -, hid, hposter⟩ := h
  rw [message_of_detectPoster hposter, hid]

/-- **What `_parse_movie_group` returns.** -/
theorem parseMovieGroup_eq_some {through : Option ℕ} {group : ParsedMovieGroup} :
    t.parseMovieGroup parser movie through = some group ↔
      0 < movie.parserConfidence ∧ ∃ poster rest,
        OpensWith movie (t.movieMessages movie through) poster rest ∧
          group = parser.groupOf (some 32) (poster, segment rest) := by
  have hasc : AscendingFrom 0 (t.movieMessages movie through) := ascending_movieMessages through
  have hle : ∀ m ∈ t.movieMessages movie through, movie.posterMessageId ≤ m.messageId :=
    fun m hm => posterMessageId_le_of_mem hm
  rw [parseMovieGroup, ArchiveParser.iterGroups_next hasc (by simp)]
  by_cases hconfidence : movie.parserConfidence = 0
  · simp [hconfidence]
  rw [if_neg hconfidence]
  constructor
  · intro h
    refine ⟨Nat.pos_of_ne_zero hconfidence, ?_⟩
    cases hwindows : movieWindows (t.movieMessages movie through) with
    | nil => simp [hwindows] at h
    | cons window windows =>
        simp only [hwindows, List.head?_cons, Option.map_some, posterMessageId_groupOf,
          Option.ite_none_right_eq_some, Option.some.injEq] at h
        obtain ⟨hposter, rfl⟩ := h
        have hmem : window ∈ movieWindows (t.movieMessages movie through) :=
          hwindows ▸ List.mem_cons_self
        obtain ⟨rest, hopens, hsegment⟩ := opensWith_of_window hasc hle hmem hposter
        exact ⟨window.1, rest, hopens, by rw [← hsegment]⟩
  · rintro ⟨-, poster, rest, hopens, rfl⟩
    rw [hopens.movieWindows]
    simp [posterMessageId_groupOf, hopens.posterMessageId]

/-- The snapshot shows a message that advertises the resolution, and it is not in conflict. -/
structure ShowsQuality (s : ArchiveMessageSnapshot) (quality : Resolution) : Prop where
  unconflicted : s.conflicted = false
  mediaKind : s.mediaKind = .video ∨ s.mediaKind = .document
  quality : extractQuality (boundedCaption s.caption) = some quality

/-- A quality of a movie's group is a recorded message of its channel. -/
theorem mem_parseMovieGroup {through : Option ℕ} {group : ParsedMovieGroup}
    (h : t.parseMovieGroup parser movie through = some group) {item : ParsedQuality}
    (hitem : item ∈ group.qualities) :
    movie.posterMessageId < item.messageId ∧ ∃ s ∈ t.snapshots,
      s.archiveChannelId = movie.archiveChannelId ∧ s.messageId = item.messageId ∧
        ShowsQuality s item.quality := by
  obtain ⟨-, poster, rest, ⟨m₀, hms, hid₀, -⟩, rfl⟩ := parseMovieGroup_eq_some.1 h
  obtain ⟨m, hm, hid, hkind, hquality⟩ := ArchiveParser.mem_groupOf hitem
  have hm : m ∈ rest := List.takeWhile_subset _ hm
  have hmem : m ∈ t.movieMessages movie through := hms ▸ List.mem_cons_of_mem m₀ hm
  obtain ⟨s, hs, hchannel, rfl⟩ := snapshot_of_mem_movieMessages hmem
  have hlt : m₀.messageId < s.message.messageId := by
    have hasc := (hms ▸ ascending_movieMessages through : AscendingFrom 0 (m₀ :: rest)).tail.2
    rw [AscendingFrom, List.pairwise_cons] at hasc
    exact hasc.1 _ (List.mem_map_of_mem hm)
  refine ⟨by omega, s, hs, hchannel, hid, ?_⟩
  cases hconflicted : s.conflicted with
  | true => simp [ArchiveMessageSnapshot.message, hconflicted] at hkind
  | false =>
      simp only [ArchiveMessageSnapshot.message, hconflicted, Bool.false_eq_true, if_false] at hkind
      exact ⟨hconflicted, hkind, hquality⟩

theorem mem_acceptedQualities {item : ParsedQuality}
    (h : item ∈ t.acceptedQualities parser movie) :
    movie.posterMessageId < item.messageId ∧ ∃ s ∈ t.snapshots,
      s.archiveChannelId = movie.archiveChannelId ∧ s.messageId = item.messageId ∧
        ShowsQuality s item.quality := by
  unfold acceptedQualities at h
  cases hgroup : t.parseMovieGroup parser movie none with
  | none => simp [hgroup] at h
  | some group =>
      rw [hgroup] at h
      exact mem_parseMovieGroup hgroup h

end

end ArchiveTables

end CineGate
