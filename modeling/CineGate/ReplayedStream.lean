/-
**Reconciling a message of the stream once more changes nothing.**

The tables of a channel are in step with a stream of messages.  When one of them is reconciled again
and has not been edited, its poster sets the columns that its movie has, its row is read as it is
stored, or the newest row of its resolution is kept; then its movie is revalidated, and the tables
are in step with the same stream as before.

* `ArchiveTables.Spans` — where the window of a movie lies in the stream, and among the movies;
* `ArchiveTables.InStep.revalidate` — revalidating any movie keeps the tables in step;
* `ArchiveTables.InStep.reconcile_again` — so does reconciling any message of the stream;
* `ArchiveTables.reconcileEdit_again`, `ArchiveTables.reconcileEdit_next` — a call of
  `reconcile_edit` for a message of the stream, and for the message behind it, where snapshots may
  have been written more than once.
-/

import CineGate.IngestedStream
import CineGate.SnapshotVersions

set_option relaxedAutoImplicit false
set_option autoImplicit false

namespace CineGate

/-! ### Messages and windows of a stream -/

section

variable {ms before : List ArchiveMessage} {m m' : ArchiveMessage}

/-- In an ascending stream the id tells a message. -/
theorem AscendingFrom.eq_of_messageId (hasc : AscendingFrom 0 ms) (hm : m ∈ ms) (hm' : m' ∈ ms)
    (hid : m.messageId = m'.messageId) : m = m' :=
  eq_of_messageId_eq (List.pairwise_map.1 (List.pairwise_cons.1 hasc).2) hm hm' hid

variable [UnicodeData]

/-- A window begins with its poster, and ends before the next one. -/
theorem exists_window_split {window : PosterCandidate × List ArchiveMessage}
    (h : window ∈ movieWindows ms) : ∃ pre m rest, ms = pre ++ m :: rest ∧
      detectPoster m = some window.1 ∧ window.2 = segment rest := by
  induction ms with
  | nil => cases h
  | cons m ms ih =>
      have hlater : window ∈ movieWindows ms → ∃ pre m' rest, m :: ms = pre ++ m' :: rest ∧
          detectPoster m' = some window.1 ∧ window.2 = segment rest := by
        intro hmem
        obtain ⟨pre, m', rest, rfl, hposter, hsegment⟩ := ih hmem
        exact ⟨m :: pre, m', rest, rfl, hposter, hsegment⟩
      rw [movieWindows] at h
      cases hposter : detectPoster m with
      | none =>
          rw [hposter] at h
          exact hlater h
      | some poster =>
          rw [hposter] at h
          rcases List.mem_cons.1 h with rfl | hmem
          · exact ⟨[], m, ms, rfl, hposter, rfl⟩
          · exact hlater hmem

variable {parser : ArchiveParser} {poster : PosterCandidate} {seg after : List ArchiveMessage}
  {item : ParsedQuality}

/-- An item of a message is accepted where the message stands. -/
theorem ArchiveParser.AcceptsAs.at_message
    (hascending : ((before ++ m :: after).map ArchiveMessage.messageId).Pairwise (· < ·))
    (h : parser.AcceptsAs poster (before ++ m :: after) item) (hid : item.messageId = m.messageId) :
    ∃ quality, parser.AcceptsAfter poster before m ∧ detectQuality m = some quality ∧
      item = itemOf poster before m quality := by
  obtain ⟨before', m', after', quality, hsplit, haccepted, hquality, rfl⟩ := h
  rw [List.map_append, List.map_cons, List.pairwise_append, List.pairwise_cons] at hascending
  obtain ⟨-, ⟨hlater, -⟩, hearlier⟩ := hascending
  have hid : m'.messageId = m.messageId := hid
  have hnotBefore : m' ∉ before := by
    intro hmem
    have hlt := hearlier _ (List.mem_map_of_mem hmem) _ List.mem_cons_self
    omega
  have hnotAfter : m' ∉ after := by
    intro hmem
    have hlt := hlater _ (List.mem_map_of_mem hmem)
    omega
  obtain ⟨rfl, rfl, rfl⟩ := (List.append_cons_inj_of_notMem hnotBefore hnotAfter).1 hsplit
  exact ⟨quality, haccepted, hquality, rfl⟩

section

variable (parser : ArchiveParser) (poster : PosterCandidate)
  (hseg : ∀ m' ∈ before ++ m :: after, detectPoster m' = none)
  (hascending : ((before ++ m :: after).map ArchiveMessage.messageId).Pairwise (· < ·))

include hseg hascending

/-- What the messages up to `m` keep. -/
theorem keeps_through :
    parser.Keeps poster (before ++ [m]) (parser.windowItems (poster, before ++ [m])) ∧
    ((before ++ [m]).map ArchiveMessage.messageId).Pairwise (· < ·) := by
  have hsublist : (before ++ [m]).Sublist (before ++ m :: after) :=
    List.Sublist.append_left (List.singleton_sublist.2 List.mem_cons_self) before
  have hascending' := hascending.sublist (hsublist.map _)
  exact ⟨ArchiveParser.windowItems_keeps (fun m' hm' => hseg m' (hsublist.subset hm')) hascending',
    hascending'⟩

/-- **A kept item is found** when the parser reads the messages up to its own. -/
theorem find?_groupOf_through {limit : Option ℕ}
    (hitem : item ∈ parser.windowItems (poster, before ++ m :: after))
    (hid : item.messageId = m.messageId) :
    ((parser.groupOf limit (poster, before ++ [m])).qualities.find?
      fun item => item.messageId = m.messageId) = some item := by
  have hfull : parser.Keeps poster (before ++ m :: after) _ :=
    ArchiveParser.windowItems_keeps hseg hascending
  obtain ⟨hthrough, hascending'⟩ := keeps_through parser poster hseg hascending
  have hmem : ∀ item', item' ∈ (parser.groupOf limit (poster, before ++ [m])).qualities ↔
      item' ∈ parser.windowItems (poster, before ++ [m]) := fun _ =>
    (parser.qualities_groupOf (poster, before ++ [m])).mem_iff
  obtain ⟨quality, haccepted, hquality, rfl⟩ :=
    ((hfull.newest item).1 hitem).1.at_message hascending hid
  have hlast : parser.AcceptsAs poster (before ++ [m]) (itemOf poster before m quality) :=
    ⟨before, m, [], quality, rfl, haccepted, hquality, rfl⟩
  refine ArchiveTables.find?_of_unique ((hmem _).2 ((hthrough.newest _).2 ⟨hlast, ?_⟩))
    (decide_eq_true hid) fun item' hitem' hid' => ?_
  · intro other hother _
    obtain ⟨m', hm', hother_id⟩ := hother.mem
    rw [hother_id]
    rcases List.mem_append.1 hm' with hm' | hm'
    · rw [List.map_append, List.pairwise_append] at hascending'
      exact (hascending'.2.2 _ (List.mem_map_of_mem hm') _ List.mem_cons_self).le
    · rw [List.mem_singleton.1 hm']
      exact le_rfl
  · obtain ⟨quality', -, hquality', rfl⟩ :=
      ((hthrough.newest item').1 ((hmem item').1 hitem')).1.at_message hascending'
        (of_decide_eq_true hid')
    rw [Option.some.inj (hquality.symm.trans hquality')]

/-- An item that is found so is kept, or a newer one of its resolution is. -/
theorem exists_newest_of_find? {limit : Option ℕ}
    (hfind : ((parser.groupOf limit (poster, before ++ [m])).qualities.find?
      fun item => item.messageId = m.messageId) = some item) :
    ∃ newest ∈ parser.windowItems (poster, before ++ m :: after),
      newest.quality = item.quality ∧ item.messageId ≤ newest.messageId := by
  have hfull : parser.Keeps poster (before ++ m :: after) _ :=
    ArchiveParser.windowItems_keeps hseg hascending
  obtain ⟨hthrough, hascending'⟩ := keeps_through parser poster hseg hascending
  have hitem : item ∈ parser.windowItems (poster, before ++ [m]) :=
    (parser.qualities_groupOf (poster, before ++ [m])).mem_iff.1 (List.mem_of_find?_eq_some hfind)
  have hid : item.messageId = m.messageId := by
    have hfound := List.find?_some hfind
    exact of_decide_eq_true hfound
  obtain ⟨quality, haccepted, hquality, hitem_eq⟩ :=
    ((hthrough.newest item).1 hitem).1.at_message hascending' hid
  have haccepts : parser.AcceptsAs poster (before ++ m :: after) item :=
    ⟨before, m, after, quality, rfl, haccepted, hquality, hitem_eq⟩
  obtain ⟨newest, hnewest, hsame, hle, hmax⟩ := haccepts.exists_newest
  exact ⟨newest, (hfull.newest newest).2 ⟨hnewest, hmax⟩, hsame, hle⟩

end

end

namespace ArchiveTables

variable [UnicodeData] {parser : ArchiveParser} {t t' : ArchiveTables} {channelId : ℤ}
  {movie : Movie} {ms pre seg rest : List ArchiveMessage} {m₀ message : ArchiveMessage}
  {poster : PosterCandidate}

/-! ### Where a movie lies -/

/-- The window of the movie is `m₀` and `seg`; the later movies are behind it, and one of them is at
or before any message of `rest`. -/
structure Spans (parser : ArchiveParser) (t : ArchiveTables) (channelId : ℤ)
    (ms : List ArchiveMessage)
    (movie : Movie) (pre : List ArchiveMessage) (m₀ : ArchiveMessage) (poster : PosterCandidate)
    (seg rest : List ArchiveMessage) : Prop where
  stream : ms = pre ++ m₀ :: (seg ++ rest)
  opens : detectPoster m₀ = some poster
  plain : ∀ m ∈ seg, detectPoster m = none
  mirrors : t.Mirrors parser movie (poster, seg)
  channel : movie.archiveChannelId = channelId
  stored : movie ∈ t.movies
  behind : ∀ other ∈ t.movies, other.archiveChannelId = channelId →
    movie.posterMessageId < other.posterMessageId → ∀ m ∈ seg, m.messageId < other.posterMessageId
  later : ∀ m ∈ rest, ∃ other ∈ t.movies, other.archiveChannelId = channelId ∧
    movie.posterMessageId < other.posterMessageId ∧ other.posterMessageId ≤ m.messageId

/-- The poster of a movie is a message of the stream. -/
theorem Aligned.exists_poster (h : t.Aligned parser channelId ms (movieWindows ms))
    (hmovie : movie ∈ t.movies) (hchannel : movie.archiveChannelId = channelId) :
    ∃ m ∈ ms, (detectPoster m).isSome ∧ m.messageId = movie.posterMessageId := by
  obtain ⟨window, hwindow, hmirrors⟩ :=
    forall₂_mem_left h.movies (mem_channelMovies.2 ⟨hmovie, hchannel⟩)
  obtain ⟨⟨m, hm, hposter⟩, -⟩ := mem_movieWindows hwindow
  refine ⟨m, hm, by rw [hposter]; rfl, ?_⟩
  rw [hmirrors.posterMessageId, message_of_detectPoster hposter]

/-- A poster of the stream has a movie. -/
theorem Aligned.exists_movie (h : t.Aligned parser channelId ms (movieWindows ms))
    (hmessage : message ∈ ms) (hposter : detectPoster message = some poster) :
    ∃ movie ∈ t.movies, movie.archiveChannelId = channelId ∧
      movie.posterMessageId = message.messageId := by
  obtain ⟨pre, rest, rfl⟩ := List.append_of_mem hmessage
  have hwindow : (poster, segment rest) ∈ movieWindows (pre ++ message :: rest) :=
    ArchiveParser.mem_movieWindows_of_poster hposter
  obtain ⟨movie, hmovie, hmirrors⟩ := forall₂_mem_left h.movies.flip hwindow
  obtain ⟨hmem, hchannel⟩ := mem_channelMovies.1 hmovie
  exact ⟨movie, hmem, hchannel,
    hmirrors.posterMessageId.trans (by rw [message_of_detectPoster hposter])⟩

theorem Spans.posterMessageId (h : Spans parser t channelId ms movie pre m₀ poster seg rest) :
    movie.posterMessageId = m₀.messageId := by
  rw [h.mirrors.posterMessageId, message_of_detectPoster h.opens]

/-- The window ascends as the stream does. -/
theorem Spans.pairwise_lt (h : Spans parser t channelId ms movie pre m₀ poster seg rest)
    (hasc : AscendingFrom 0 ms) : ((m₀ :: seg).map ArchiveMessage.messageId).Pairwise (· < ·) := by
  have hsublist : (m₀ :: seg).Sublist ms := by
    rw [h.stream]
    exact ((List.sublist_append_left seg rest).cons_cons m₀).trans (List.sublist_append_right _ _)
  exact (List.pairwise_cons.1 hasc).2.sublist (hsublist.map _)

theorem Spans.ascending (h : Spans parser t channelId ms movie pre m₀ poster seg rest)
    (hasc : AscendingFrom 0 ms) : (seg.map ArchiveMessage.messageId).Pairwise (· < ·) :=
  (List.pairwise_cons.1 (h.pairwise_lt hasc)).2

theorem Spans.lt_of_mem (h : Spans parser t channelId ms movie pre m₀ poster seg rest)
    (hasc : AscendingFrom 0 ms) (hmem : message ∈ seg) : m₀.messageId < message.messageId :=
  (List.pairwise_cons.1 (h.pairwise_lt hasc)).1 _ (List.mem_map_of_mem hmem)

/-- **Every movie spans its window.** -/
theorem Aligned.exists_spans (h : t.Aligned parser channelId ms (movieWindows ms))
    (hasc : AscendingFrom 0 ms) (hmovie : movie ∈ t.movies)
    (hchannel : movie.archiveChannelId = channelId) :
    ∃ pre m₀ poster seg rest, Spans parser t channelId ms movie pre m₀ poster seg rest := by
  obtain ⟨⟨poster, seg⟩, hwindow, hmirrors⟩ :=
    forall₂_mem_left h.movies (mem_channelMovies.2 ⟨hmovie, hchannel⟩)
  obtain ⟨pre, m₀, behind, hms, hposter, rfl⟩ := exists_window_split hwindow
  have hsplit : segment behind ++ behind.dropWhile (fun m => (detectPoster m).isNone) = behind :=
    List.takeWhile_append_dropWhile
  have hplain : ∀ m ∈ segment behind, detectPoster m = none := fun m hm => by
    simpa using List.mem_takeWhile_imp hm
  have hid : movie.posterMessageId = m₀.messageId := by
    rw [hmirrors.posterMessageId, message_of_detectPoster hposter]
  have hstream : ms = pre ++ m₀ :: (segment behind ++
      behind.dropWhile fun m => (detectPoster m).isNone) := by rw [hsplit, hms]
  have hpairwise : (ms.map ArchiveMessage.messageId).Pairwise (· < ·) :=
    (List.pairwise_cons.1 hasc).2
  rw [hstream, List.map_append, List.map_cons, List.map_append, List.pairwise_append,
    List.pairwise_cons, List.pairwise_append] at hpairwise
  obtain ⟨-, ⟨hlater, -, hordered, hapart⟩, hearlier⟩ := hpairwise
  refine ⟨pre, m₀, poster, _, _, hstream, hposter, hplain, hmirrors, hchannel, hmovie, ?_, ?_⟩
  · intro other hother hother_channel hlt m hm
    -- the later poster is in the stream, and in no window
    obtain ⟨m', hm', hposter', hid'⟩ := h.exists_poster hother hother_channel
    rw [hstream, List.mem_append, List.mem_cons, List.mem_append] at hm'
    rw [hid] at hlt
    rcases hm' with hm' | rfl | hm' | hm'
    · have hlt' := hearlier _ (List.mem_map_of_mem hm') _ List.mem_cons_self
      omega
    · omega
    · rw [hplain m' hm'] at hposter'
      cases hposter'
    · rw [← hid']
      exact hapart _ (List.mem_map_of_mem hm) _ (List.mem_map_of_mem hm')
  · intro m hm
    -- what is behind the window begins with the next poster
    cases hdrop : behind.dropWhile fun m => (detectPoster m).isNone with
    | nil =>
        rw [hdrop] at hm
        cases hm
    | cons next tail =>
        have hnext : (detectPoster next).isSome := by
          have hnot := List.head_dropWhile_not (fun m => (detectPoster m).isNone) (l := behind)
            (by rw [hdrop]; exact List.cons_ne_nil _ _)
          simp only [hdrop, List.head_cons] at hnot
          simpa using hnot
        obtain ⟨poster', hposter'⟩ := Option.isSome_iff_exists.1 hnext
        rw [hdrop] at hstream hlater hm hordered
        have hnext_mem : next ∈ ms := by rw [hstream]; simp
        obtain ⟨other, hother, hother_channel, hother_id⟩ := h.exists_movie hnext_mem hposter'
        refine ⟨other, hother, hother_channel, ?_, ?_⟩
        · rw [hid, hother_id]
          exact hlater _ (List.mem_append_right _ (List.mem_map_of_mem List.mem_cons_self))
        · rw [hother_id]
          rcases List.mem_cons.1 hm with rfl | hm
          · exact le_rfl
          · rw [List.map_cons, List.pairwise_cons] at hordered
            exact (hordered.1 _ (List.mem_map_of_mem hm)).le

/-- **Revalidating a movie** keeps the tables in step. -/
theorem InStep.revalidate (h : t.InStep parser channelId ms) (hasc : AscendingFrom 0 ms)
    (hbound : ∀ m ∈ ms, m.messageId < bigintMax) (hmovie : movie ∈ t.movies)
    (hchannel : movie.archiveChannelId = channelId) :
    (t.revalidateMovie parser movie).1.InStep parser channelId ms := by
  obtain ⟨pre, m₀, poster, seg, rest, hspans⟩ := h.exists_spans hasc hmovie hchannel
  have hm₀ : poster.message = m₀ := message_of_detectPoster hspans.opens
  have hms : ms = pre ++ (poster, seg).1.message :: ((poster, seg).2 ++ rest) := by
    rw [hm₀]
    exact hspans.stream
  have hopens : detectPoster (poster, seg).1.message = some (poster, seg).1 := by
    rw [hm₀]
    exact hspans.opens
  refine h.toAligned.revalidateMovie hms hopens hspans.plain hasc hbound hspans.mirrors hchannel
    ⟨movie, KeyedTable.find?_of_mem hmovie, hchannel⟩ ?_ ?_ fun other hother _ =>
      h.decided other hother
  · intro other hother hother_channel hlt
    exact hspans.behind other hother (hother_channel.trans hchannel) hlt
  · intro m hm
    obtain ⟨other, hother, hother_channel, hbetween⟩ := hspans.later m hm
    exact ⟨other, hother, hother_channel.trans hchannel.symm, hbetween⟩

/-- The messages of the range of a movie are those of its window. -/
theorem Spans.rangeMessages_eq (h : Spans parser t channelId ms movie pre m₀ poster seg rest)
    (hstream : t.HoldsStream channelId ms) (hasc : AscendingFrom 0 ms) :
    t.rangeMessages movie = m₀ :: seg := by
  have hid := h.posterMessageId
  have hearlier : ∀ m ∈ pre, m.messageId < m₀.messageId := by
    have hpairwise : (ms.map ArchiveMessage.messageId).Pairwise (· < ·) :=
      (List.pairwise_cons.1 hasc).2
    rw [h.stream, List.map_append, List.pairwise_append] at hpairwise
    exact fun m hm => hpairwise.2.2 _ (List.mem_map_of_mem hm) _ List.mem_cons_self
  refine (h.stream ▸ hstream).rangeMessages_eq_window h.channel hid hearlier (fun m hm => ?_)
    fun m hm hcovers => ?_
  · rcases List.mem_cons.1 hm with rfl | hm
    · exact ⟨h.channel.symm, hid.le, fun other _ _ hlt => hid ▸ hlt⟩
    · refine ⟨h.channel.symm, ?_, fun other hother hother_channel hlt =>
        h.behind other hother (hother_channel.trans h.channel) hlt m hm⟩
      rw [hid]
      exact (h.lt_of_mem hasc hm).le
  · -- behind the window another movie is nearer
    obtain ⟨other, hother, hother_channel, hlt, hle⟩ := h.later m hm
    exact absurd (hcovers.2.2 other hother (hother_channel.trans h.channel.symm) hlt) (not_lt.2 hle)

/-- The parser reads a movie up to a message of its window. -/
theorem Spans.parseMovieGroup_through {before after : List ArchiveMessage}
    (h : Spans parser t channelId ms movie pre m₀ poster (before ++ message :: after) rest)
    (hstream : t.HoldsStream channelId ms) (hasc : AscendingFrom 0 ms)
    (hbound : ∀ m ∈ ms, m.messageId < bigintMax) :
    t.parseMovieGroup parser movie (some message.messageId) =
      some (parser.groupOf (some 32) (poster, before ++ [message])) := by
  have hbounded : t.BoundedIn movie.archiveChannelId := h.channel ▸ hstream.boundedIn hbound
  have hordered := h.ascending hasc
  rw [List.map_append, List.map_cons, List.pairwise_append, List.pairwise_cons] at hordered
  obtain ⟨-, ⟨hafter, -⟩, hbefore⟩ := hordered
  have hthrough : t.movieMessages movie (some message.messageId) = m₀ :: (before ++ [message]) := by
    rw [movieMessages_through hbounded (hstream.unconflicted h.channel),
      h.rangeMessages_eq hstream hasc,
      List.filter_cons_of_pos, List.filter_append, List.filter_cons_of_pos (by simp)]
    · have hall : before.filter (fun m => m.messageId ≤ message.messageId) = before :=
        List.filter_eq_self.2 fun m hm =>
          decide_eq_true (hbefore _ (List.mem_map_of_mem hm) _ List.mem_cons_self).le
      have hnone : after.filter (fun m => m.messageId ≤ message.messageId) = [] :=
        List.filter_eq_nil_iff.2 fun m hm => by
          have hlt := hafter _ (List.mem_map_of_mem hm)
          simpa using hlt
      rw [hall, hnone]
    · exact decide_eq_true (h.lt_of_mem hasc (by simp)).le
  have hplain : ∀ m ∈ before ++ [message], detectPoster m = none := by
    intro m hm
    refine h.plain m ?_
    rcases List.mem_append.1 hm with hm | hm
    · exact List.mem_append_left _ hm
    · rw [List.mem_singleton.1 hm]
      exact List.mem_append_right _ List.mem_cons_self
  refine parseMovieGroup_eq_some.2 ⟨h.mirrors.parserConfidence_pos h.opens, poster,
    before ++ [message], ⟨m₀, hthrough, h.posterMessageId.symm, h.opens⟩, ?_⟩
  rw [segment_of_none hplain]

/-- A message of the stream behind a movie and before the next one lies in its window. -/
theorem Spans.mem_window (h : Spans parser t channelId ms movie pre m₀ poster seg rest)
    (hasc : AscendingFrom 0 ms) (hmessage : message ∈ ms)
    (hlt : movie.posterMessageId < message.messageId)
    (hmax : ∀ other ∈ t.movies, other.archiveChannelId = channelId →
      other.posterMessageId ≤ message.messageId → other.posterMessageId ≤ movie.posterMessageId) :
    message ∈ seg := by
  have hid := h.posterMessageId
  have hpairwise : (ms.map ArchiveMessage.messageId).Pairwise (· < ·) :=
    (List.pairwise_cons.1 hasc).2
  rw [h.stream, List.map_append, List.map_cons, List.pairwise_append] at hpairwise
  rw [h.stream, List.mem_append, List.mem_cons, List.mem_append] at hmessage
  rcases hmessage with hmessage | rfl | hmessage | hmessage
  · have hlt' := hpairwise.2.2 _ (List.mem_map_of_mem hmessage) _ List.mem_cons_self
    omega
  · omega
  · exact hmessage
  · obtain ⟨other, hother, hother_channel, hbehind, hle⟩ := h.later message hmessage
    have hle' := hmax other hother hother_channel hle
    omega

/-! ### Reconciling a message once more -/

section

variable {result : ArchiveIndexResult}

omit [UnicodeData] in
/-- A movie that is written as it is. -/
theorem updateMovie_eq_self {f : Movie → Movie} {hf : ∀ movie, (f movie).id = movie.id}
    (hmovie : movie ∈ t.movies) (hsame : f movie = movie) : t.updateMovie movie.id f hf = t := by
  have hmovies : t.movies.modifyAt movie.id f hf = t.movies :=
    KeyedTable.modifyAt_eq_self fun other hother hid => by
      rw [t.movies.ext_key hother hmovie hid, hsame]
  rw [updateMovie, hmovies]

omit [UnicodeData] in
/-- A row that is written as it is. -/
theorem updateQuality_eq_self {row : MovieQuality} {f : MovieQuality → MovieQuality}
    {hf : ∀ row, (f row).id = row.id} (hrow : row ∈ t.qualities) (hsame : f row = row) :
    t.updateQuality row.id f hf = t := by
  have hrows : t.qualities.modifyAt row.id f hf = t.qualities :=
    KeyedTable.modifyAt_eq_self fun other hother hid => by
      rw [t.qualities.ext_key hother hrow hid, hsame]
  rw [updateQuality, hrows]

/-- A poster that shows what it has shown. -/
theorem InStep.reconcile_poster (h : t.InStep parser channelId ms) (hasc : AscendingFrom 0 ms)
    (hbound : ∀ m ∈ ms, m.messageId < bigintMax) (hmessage : message ∈ ms)
    (hposter : t.posterMovie? channelId message.messageId = some movie) :
    (t.reconcilePosterEdit parser movie message).1.InStep parser channelId ms := by
  obtain ⟨hmovie, hchannel, hid⟩ := posterMovie?_eq_some hposter
  obtain ⟨pre, m₀, poster, seg, rest, hspans⟩ := h.exists_spans hasc hmovie hchannel
  have hsame : message = m₀ := by
    refine hasc.eq_of_messageId hmessage (by rw [hspans.stream]; simp) ?_
    rw [← hid, hspans.posterMessageId]
  subst hsame
  have hkind : message.mediaKind = .photo := by
    by_contra hkind
    have hnone := detectPoster_eq_none_of_ne hkind
    rw [hspans.opens] at hnone
    cases hnone
  have hcolumns : setPoster (parser.groupOf none (poster, [])) movie = movie :=
    setPoster_groupOf.trans hspans.mirrors.columns
  have hupdate : t.updateMovie movie.id (setPoster (parser.groupOf none (poster, []))) = t :=
    updateMovie_eq_self hmovie hcolumns
  have hedit : (t.reconcilePosterEdit parser movie message).1 =
      ((t.updateMovie movie.id (setPoster (parser.groupOf none (poster, [])))).revalidateMovie
        parser (setPoster (parser.groupOf none (poster, [])) movie)).1 := by
    rw [reconcilePosterEdit, if_neg (by simp [hkind]), parsePoster_of_detectPoster hspans.opens]
  rw [hedit, hupdate, hcolumns]
  exact h.revalidate hasc hbound hmovie hchannel

/-- A file whose row is as it was accepted. -/
theorem InStep.reconcile_row (h : t.InStep parser channelId ms) (hasc : AscendingFrom 0 ms)
    (hbound : ∀ m ∈ ms, m.messageId < bigintMax) (hmessage : message ∈ ms) {row : MovieQuality}
    (hrow : t.attachedQuality? channelId message.messageId = some row)
    (hmovie : t.movies.find? row.movieId = some movie) :
    (t.reconcileQualityEdit parser movie row message).1.InStep parser channelId ms := by
  obtain ⟨hmem, hchannel, hid⟩ := attachedQuality?_eq_some hrow
  obtain ⟨owner, howner, howner_channel, -⟩ := h.linked.rowMovie row hmem
  obtain rfl : movie = owner := Option.some.inj (hmovie.symm.trans howner)
  have hmovie_mem : movie ∈ t.movies := KeyedTable.mem_of_find? hmovie
  have hmovie_id : movie.id = row.movieId := KeyedTable.key_of_find? hmovie
  have hmovie_channel : movie.archiveChannelId = channelId := howner_channel.trans hchannel
  obtain ⟨pre, m₀, poster, seg, rest, hspans⟩ := h.exists_spans hasc hmovie_mem hmovie_channel
  have hitem : parsedColumns row ∈ parser.windowItems (poster, seg) :=
    hspans.mirrors.items ▸ mem_movieItems.2 ⟨row, hmem, hmovie_id.symm, rfl⟩
  obtain ⟨m, hm, haccepts⟩ := ArchiveParser.accepts_of_mem_windowItems hitem
  -- two messages of the stream have different ids
  have hsame : m = message := by
    refine hasc.eq_of_messageId (by rw [hspans.stream]; simp [hm]) hmessage ?_
    rw [← hid]
    exact (messageId_of_accepts haccepts).symm
  subst hsame
  obtain ⟨before, after, rfl⟩ := List.append_of_mem hm
  have hfind : groupQuality? (t.parseMovieGroup parser movie (some m.messageId)) m.messageId =
      some (parsedColumns row) := by
    rw [hspans.parseMovieGroup_through h.stream hasc hbound]
    exact find?_groupOf_through parser poster hspans.plain (hspans.ascending hasc) hitem hid
  have hkind : (m.mediaKind ≠ .video && m.mediaKind ≠ .document) = false := by
    rcases mediaKind_of_accepts haccepts with hkind | hkind
    · simp [hkind]
    · simp [hkind]
  have hown : (parsedColumns row).quality = row.quality := rfl
  have hcolumns : setQualityColumns (parsedColumns row) row = row := rfl
  -- the row is written as it stands
  have hupdate : t.updateQuality row.id (setQualityColumns (parsedColumns row)) = t :=
    updateQuality_eq_self hmem hcolumns
  have hedit : (t.reconcileQualityEdit parser movie row m).1 =
      ((t.updateQuality row.id (setQualityColumns (parsedColumns row))).revalidateMovie parser
        movie).1 := by
    rw [reconcileQualityEdit, if_neg (by rw [hkind]; exact Bool.false_ne_true), hfind]
    dsimp only
    rw [if_neg (by simp [hown])]
  rw [hedit, hupdate]
  exact h.revalidate hasc hbound hmovie_mem hmovie_channel

theorem InStep.reconcile_boundary (h : t.InStep parser channelId ms) (hasc : AscendingFrom 0 ms)
    (hbound : ∀ m ∈ ms, m.messageId < bigintMax) (messageId : ℕ) :
    (t.reconcileBoundary parser channelId messageId).InStep parser channelId ms := by
  unfold ArchiveTables.reconcileBoundary
  split
  · exact h
  · next movie hbefore =>
      obtain ⟨hmovie, hchannel, -⟩ := movieBefore?_eq_some hbefore
      exact h.revalidate hasc hbound hmovie hchannel

omit [UnicodeData] in
/-- The row of a resolution is not written by a message that is not newer. -/
theorem upsertQualityRow_of_le {row : MovieQuality} {item : ParsedQuality} (hkeys : t.UniqueKeys)
    (hrow : row ∈ t.qualities) (hmovie : row.movieId = movie.id)
    (hquality : row.quality = item.quality) (hle : item.messageId ≤ row.archiveMessageId) :
    t.upsertQualityRow movie.id channelId item = (t, false) := by
  have hfind : (t.qualities.rows.find? fun row =>
    row.movieId = movie.id && row.quality = item.quality) =
      some row := by
    refine find?_of_unique hrow (by simp [hmovie, hquality]) fun other hother hsame => ?_
    simp only [Bool.and_eq_true, decide_eq_true_eq] at hsame
    exact hkeys.quality other hother row hrow (hsame.1.trans hmovie.symm)
      (hsame.2.trans hquality.symm)
  rw [upsertQualityRow, hfind]
  dsimp only
  rw [if_neg (not_lt.2 hle)]

/-- A file that has no row: it is not accepted, or a newer one of its resolution has the row. -/
theorem InStep.reconcile_candidate (h : t.InStep parser channelId ms) (hasc : AscendingFrom 0 ms)
    (hbound : ∀ m ∈ ms, m.messageId < bigintMax) (hmessage : message ∈ ms)
    (hposter : t.posterMovie? channelId message.messageId = none)
    (hok : t.upsertQuality parser channelId message = .ok (t', result)) :
    t'.InStep parser channelId ms := by
  unfold upsertQuality at hok
  cases hbefore : t.movieBefore? channelId message.messageId with
  | none =>
      rw [hbefore] at hok
      cases hok
      exact h
  | some movie =>
      obtain ⟨hmovie, hchannel, hlt, hmax⟩ := movieBefore?_eq_some hbefore
      obtain ⟨pre, m₀, poster, seg, rest, hspans⟩ := h.exists_spans hasc hmovie hchannel
      -- the message lies in the window of the last poster before it
      have hmem : message ∈ seg := by
        refine hspans.mem_window hasc hmessage hlt fun other hother hother_channel hle => ?_
        have hne := posterMovie?_eq_none hposter other hother hother_channel
        exact hmax other hother hother_channel (lt_of_le_of_ne hle hne)
      obtain ⟨before, after, rfl⟩ := List.append_of_mem hmem
      rw [hbefore] at hok
      dsimp only at hok
      rw [hspans.parseMovieGroup_through h.stream hasc hbound] at hok
      dsimp only at hok
      cases hfind : (parser.groupOf (some 32) (poster, before ++ [message])).qualities.find?
          fun item => item.messageId = message.messageId with
      | none =>
          rw [hfind] at hok
          cases hok
          exact h
      | some item =>
          obtain ⟨newest, hnewest, hquality, hle⟩ :=
            exists_newest_of_find? parser poster hspans.plain (hspans.ascending hasc) hfind
          rw [← hspans.mirrors.items] at hnewest
          obtain ⟨row, hrow, hmovie_id, rfl⟩ := mem_movieItems.1 hnewest
          -- the row has the newest item of its resolution already
          have hupsert : t.upsertQualityRow movie.id channelId item = (t, false) :=
            upsertQualityRow_of_le h.keys hrow hmovie_id hquality hle
          rw [hfind] at hok
          dsimp only at hok
          rw [hupsert] at hok
          split at hok
          · cases hok
          · cases hok
            exact h.revalidate hasc hbound hmovie hchannel

/-- **Reconciling a message of the stream once more** keeps the tables in step with the stream. -/
theorem InStep.reconcile_again (h : t.InStep parser channelId ms) (hasc : AscendingFrom 0 ms)
    (hbound : ∀ m ∈ ms, m.messageId < bigintMax) (hmessage : message ∈ ms)
    (hok : t.reconcileMessage parser channelId message = .ok (t', result)) :
    t'.InStep parser channelId ms := by
  unfold reconcileMessage at hok
  cases hposter : t.posterMovie? channelId message.messageId with
  | some movie =>
      rw [hposter] at hok
      obtain rfl : (t.reconcilePosterEdit parser movie message).1 = t' :=
        congrArg Prod.fst (Except.ok.inj hok)
      exact h.reconcile_poster hasc hbound hmessage hposter
  | none =>
      rw [hposter] at hok
      cases hrow : t.attachedQuality? channelId message.messageId with
      | some row =>
          obtain ⟨movie, hmovie, -⟩ := h.linked.rowMovie row (attachedQuality?_eq_some hrow).1
          have hattached : t.attachedMovie? channelId message.messageId = some movie := by
            rw [attachedMovie?, hrow, Option.bind_some, hmovie]
          rw [hrow, hattached] at hok
          obtain rfl : (t.reconcileQualityEdit parser movie row message).1 = t' :=
            congrArg Prod.fst (Except.ok.inj hok)
          exact h.reconcile_row hasc hbound hmessage hrow hmovie
      | none =>
          rw [hrow] at hok
          dsimp only at hok
          have hboundary := h.reconcile_boundary hasc hbound message.messageId
          cases hkind : message.mediaKind with
          | photo =>
              rw [indexMessage, hkind] at hok
              dsimp only at hok
              cases hgroup : parsePoster parser message with
              | none =>
                  rw [hgroup] at hok
                  cases hok
                  exact hboundary
              | some group =>
                  -- a poster of the stream has its movie
                  obtain ⟨poster, hdetect, -⟩ := parsePoster_eq_some hgroup
                  obtain ⟨movie, hmovie, hchannel, hid⟩ := h.exists_movie hmessage hdetect
                  exact absurd hid (posterMovie?_eq_none hposter movie hmovie hchannel)
          | video | document =>
              rw [indexMessage_file (by simp [hkind])] at hok
              split at hok
              · exact h.reconcile_candidate hasc hbound hmessage hposter hok
              · cases hok
                exact hboundary
          | other =>
              rw [indexMessage, hkind] at hok
              cases hok
              exact hboundary

end

/-! ### A call of the reindex -/

section

variable {configured : Option SettingValue} {version : ℕ} {result : ArchiveIndexResult}

/-- A call with another version than that of the snapshot leaves the tables alone. -/
theorem reconcileEdit_stale (hconfigured : getInt configured = .ok (some channelId))
    (hstale : version ≠ t.snapshotVersion channelId message.messageId)
    (hok : t.reconcileEdit parser configured channelId message (some version) = .ok (t', result)) :
    t' = t := by
  have hrecord : t.recordSnapshot parser channelId message true (some version) = (t, false) := by
    unfold recordSnapshot
    dsimp only
    rw [if_pos (by simpa [snapshotVersion] using hstale)]
  unfold ArchiveTables.reconcileEdit indexTransaction at hok
  rw [hconfigured] at hok
  dsimp only at hok
  rw [if_neg (by simp), hrecord] at hok
  split at hok
  · cases hok
  · exact (uniqueKeys_of_commit hok).1

/-- A message of the stream is shown as it is recorded. -/
theorem InStep.snapshot?_of_mem (h : t.InStep parser channelId ms) (hmessage : message ∈ ms) :
    t.snapshot? channelId message.messageId = some (newSnapshot channelId message) := by
  have hmem : newSnapshot channelId message ∈ t.snapshots :=
    (mem_channelSnapshots.1 (h.stream ▸ List.mem_map_of_mem hmessage)).1
  exact KeyedTable.find?_of_mem hmem

/-- **A call for a message of the stream**, whatever version it expects, keeps the channel in
step. -/
theorem reconcileEdit_again (h : t.unversioned.InStep parser channelId ms)
    (hasc : AscendingFrom 0 ms)
    (hbound : ∀ m ∈ ms, m.messageId < bigintMax) (hmessage : message ∈ ms)
    (hconfigured : getInt configured = .ok (some channelId))
    (hok : t.reconcileEdit parser configured channelId message (some version) = .ok (t', result)) :
    t'.unversioned.InStep parser channelId ms := by
  by_cases hstale : version = t.snapshotVersion channelId message.messageId
  · subst hstale
    have hseen := h.snapshot?_of_mem hmessage
    have hcurrent : t.IsCurrent channelId message := by
      intro s hs recorded hrecorded
      rw [snapshot?_unversioned, hs] at hseen
      have hedited : s.editedAt = message.editedAt :=
        congrArg ArchiveMessageSnapshot.editedAt (Option.some.inj hseen)
      exact ⟨recorded, hedited.symm.trans hrecorded, le_rfl⟩
    have hreplayed : t.replayNow parser configured channelId message = .ok t' := by
      rw [replayNow, replayMessage, hok]
      rfl
    obtain ⟨⟨result', hindex⟩, -⟩ := reconcileEdit_replayed hconfigured hcurrent hreplayed
    have hunversioned : t.unversioned.reconcileMessage parser channelId message =
        .ok (t'.unversioned, result') := by
      rw [← recordMessage_again hseen, reconcileMessage_unversioned, hindex]
      rfl
    exact h.reconcile_again hasc hbound hmessage hunversioned
  · rw [reconcileEdit_stale hconfigured hstale hok]
    exact h

/-- **A call for the message behind the stream** brings the channel in step with the longer
stream. -/
theorem reconcileEdit_next (hdigits : DecimalDigits) (h : t.unversioned.InStep parser channelId ms)
    (hasc : AscendingFrom 0 (ms ++ [message]))
    (hbound : ∀ m ∈ ms ++ [message], m.messageId < bigintMax) (htitles : TitlesFit message)
    (hshows : CaptionShowsQuality message) (hconfigured : getInt configured = .ok (some channelId))
    (hok : t.reconcileEdit parser configured channelId message (some 0) = .ok (t', result)) :
    t'.unversioned.InStep parser channelId (ms ++ [message]) := by
  have hnewer := newer_of_ascending hasc
  have hunseen : t.snapshot? channelId message.messageId = none := by
    have hnone := h.stream.snapshot?_eq_none fun m hm => (hnewer m hm).ne
    rw [snapshot?_unversioned] at hnone
    exact Option.map_eq_none_iff.1 hnone
  have hversion : t.snapshotVersion channelId message.messageId = 0 := by
    rw [snapshotVersion, hunseen]
    rfl
  have hcurrent : t.IsCurrent channelId message := by
    intro s hs
    rw [hunseen] at hs
    cases hs
  have hreplayed : t.replayNow parser configured channelId message = .ok t' := by
    rw [replayNow, replayMessage, hversion, hok]
    rfl
  obtain ⟨⟨result', hindex⟩, -⟩ := reconcileEdit_replayed hconfigured hcurrent hreplayed
  have hreceived := h.recordMessage hasc hbound
  obtain ⟨u, result'', hnext, hstep⟩ := hreceived.indexMessage hdigits htitles hshows
  have hunversioned :
      (t.unversioned.recordMessage channelId message).reconcileMessage parser channelId
        message = .ok (t'.unversioned, result') := by
    rw [← recordMessage_unversioned hunseen, reconcileMessage_unversioned, hindex]
    rfl
  rw [reconcileMessage, hreceived.unposted, hreceived.unattached] at hunversioned
  dsimp only at hunversioned
  rw [hnext] at hunversioned
  obtain rfl : u = t'.unversioned := congrArg Prod.fst (Except.ok.inj hunversioned)
  exact hstep

end

end ArchiveTables

end CineGate
