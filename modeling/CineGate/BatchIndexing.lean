/-
**Indexing message by message is parsing the whole stream.**

A channel that is still empty receives messages with ascending ids, each perhaps several times.  Its
snapshots are then the messages as they were first seen, its movies are the windows of that stream,
and the rows of a movie are what the group of its window has accepted.  Every message keeps this: a
poster opens a movie behind the others, any other message joins the last window, and revalidation
finds every row accepted as it is stored.

* `ArchiveTables.Mirrors`, `ArchiveTables.Aligned` — the tables hold the windows of a stream;
* `ArchiveTables.InStep`, `ArchiveTables.Received` — with decided statuses; with one more message;
* `ArchiveTables.Received.reconcileBoundary`, `ArchiveTables.Received.upsertQuality`,
  `ArchiveTables.Received.upsertPoster` — the three ways in which the message is indexed.
-/

import CineGate.ChannelTables
import CineGate.Transition

set_option relaxedAutoImplicit false
set_option autoImplicit false

namespace CineGate

namespace ArchiveTables

variable {t t' : ArchiveTables} {channelId : ℤ} {movie : Movie} {ms : List ArchiveMessage}
  {message : ArchiveMessage}

/-! ### Tables that mirror windows -/

section

variable [UnicodeData] (parser : ArchiveParser)

/-- The movie is the one of the window: its poster, its columns and its rows. -/
structure Mirrors (t : ArchiveTables) (movie : Movie)
    (window : PosterCandidate × List ArchiveMessage) : Prop where
  posterMessageId : movie.posterMessageId = window.1.message.messageId
  columns : setPoster (parser.groupOf none window) movie = movie
  items : t.movieItems movie.id = parser.windowItems window

/-- The channel holds the stream `ms`, and its movies are those of the windows. -/
structure Aligned (t : ArchiveTables) (channelId : ℤ) (ms : List ArchiveMessage)
    (windows : List (PosterCandidate × List ArchiveMessage)) : Prop where
  keys : t.UniqueKeys
  linked : t.Linked
  fits : t.fitsColumns
  stream : t.HoldsStream channelId ms
  movies : List.Forall₂ (t.Mirrors parser) (t.channelMovies channelId) windows

/-- The movie is indexed exactly when it has rows. -/
def Decided (t : ArchiveTables) (movie : Movie) : Prop :=
  movie.status = .indexed ↔ t.movieItems movie.id ≠ []

/-- The channel holds the stream, and its movies are those of the windows of the stream. -/
structure InStep (t : ArchiveTables) (channelId : ℤ) (ms : List ArchiveMessage) : Prop
    extends t.Aligned parser channelId ms (movieWindows ms) where
  decided : ∀ movie ∈ t.channelMovies channelId, t.Decided movie

end

section

variable [UnicodeData] {parser : ArchiveParser}
  {windows : List (PosterCandidate × List ArchiveMessage)}

/-! ### Statuses -/

/-- A movie after a write to the status of one movie. -/
def restatus (movieId : ℕ) (status : MovieStatus) (movie : Movie) : Movie :=
  if movie.id = movieId then { movie with status } else movie

/-- Write the status of one movie. -/
def setStatus (t : ArchiveTables) (movieId : ℕ) (status : MovieStatus) : ArchiveTables :=
  t.updateMovie movieId fun m => { m with status }

section

omit [UnicodeData]

variable {movieId : ℕ} {status : MovieStatus}

/-- Nothing but the status of a movie is written. -/
theorem restatus_eq (movie : Movie) :
    ∃ status', restatus movieId status movie = { movie with status := status' } := by
  unfold restatus
  split
  · exact ⟨status, rfl⟩
  · exact ⟨movie.status, rfl⟩

theorem rows_setStatus :
    (t.setStatus movieId status).movies.rows = t.movies.rows.map (restatus movieId status) := rfl

theorem mem_setStatus {movie' : Movie} :
    movie' ∈ (t.setStatus movieId status).movies ↔
      ∃ movie ∈ t.movies, restatus movieId status movie = movie' := List.mem_map

theorem channelMovies_setStatus :
    (t.setStatus movieId status).channelMovies channelId =
      (t.channelMovies channelId).map (restatus movieId status) := by
  rw [channelMovies, channelMovies, rows_setStatus, List.filter_map]
  congr 1
  refine List.filter_congr fun movie _ => ?_
  obtain ⟨status', hstatus'⟩ : ∃ status', restatus movieId status movie = _ := restatus_eq movie
  rw [Function.comp_apply, hstatus']

theorem UniqueKeys.setStatus (h : t.UniqueKeys) : (t.setStatus movieId status).UniqueKeys := by
  refine ⟨fun a' ha' b' hb' hchannel hid => ?_, h.message, h.quality⟩
  obtain ⟨a, ha, rfl⟩ := mem_setStatus.1 ha'
  obtain ⟨b, hb, rfl⟩ := mem_setStatus.1 hb'
  obtain ⟨_, ha_eq⟩ : ∃ status', restatus movieId status a = _ := restatus_eq a
  obtain ⟨_, hb_eq⟩ : ∃ status', restatus movieId status b = _ := restatus_eq b
  rw [ha_eq, hb_eq] at hchannel hid
  rw [h.poster a ha b hb hchannel hid]

theorem fitsColumns_setStatus (h : t.fitsColumns) : (t.setStatus movieId status).fitsColumns := by
  obtain ⟨hsnapshots, hmovies, hqualities⟩ := fitsColumns_iff.1 h
  refine fitsColumns_iff.2 ⟨hsnapshots, fun movie' hmovie' => ?_, hqualities⟩
  obtain ⟨movie, hmovie, rfl⟩ := mem_setStatus.1 hmovie'
  obtain ⟨_, heq⟩ : ∃ status', restatus movieId status movie = _ := restatus_eq movie
  rw [heq]
  exact hmovies movie hmovie

end

/-- A status is no part of what the tables hold of the windows. -/
theorem Aligned.setStatus (h : t.Aligned parser channelId ms windows) {movieId : ℕ}
    {status : MovieStatus} :
    (t.setStatus movieId status).Aligned parser channelId ms windows := by
  refine ⟨h.keys.setStatus, h.linked.of_samePlaces samePlaces_setStatus,
    fitsColumns_setStatus h.fits, h.stream, ?_⟩
  rw [channelMovies_setStatus, List.forall₂_map_left_iff]
  refine h.movies.imp fun movie window hmirrors => ?_
  obtain ⟨status', heq⟩ : ∃ status', restatus movieId status movie = _ := restatus_eq movie
  rw [heq]
  refine ⟨hmirrors.posterMessageId, ?_, hmirrors.items⟩
  exact congrArg (fun m : Movie => { m with status := status' }) hmirrors.columns

/-- **Deciding the last undecided movie** brings the tables in step. -/
theorem Aligned.decide (h : t.Aligned parser channelId ms (movieWindows ms)) {movieId : ℕ}
    (hothers : ∀ movie ∈ t.channelMovies channelId, movie.id ≠ movieId → t.Decided movie) :
    (t.setStatus movieId (t.decidedStatus movieId)).InStep parser channelId ms := by
  refine ⟨h.setStatus, fun movie' hmovie' => ?_⟩
  rw [channelMovies_setStatus] at hmovie'
  obtain ⟨movie, hmovie, rfl⟩ := List.mem_map.1 hmovie'
  unfold restatus
  split
  · next hid =>
      have hitems : (t.setStatus movieId (t.decidedStatus movieId)).movieItems movie.id =
          t.movieItems movieId := by rw [hid]; rfl
      rw [Decided, hitems, movieItems]
      cases hrows : t.movieQualities movieId with
      | nil => simp [decidedStatus, hrows]
      | cons row rows => simp [decidedStatus, hrows]
  · next hid => exact hothers movie hmovie hid

/-! ### Revalidating a mirrored movie -/

/-- The poster alone decides the columns of a movie. -/
theorem setPoster_groupOf {poster : PosterCandidate} {seg seg' : List ArchiveMessage} :
    setPoster (parser.groupOf none (poster, seg)) movie =
      setPoster (parser.groupOf none (poster, seg')) movie := by
  simp [setPoster, ArchiveParser.groupOf, finalizeGroup]

/-- Only the rows of the movie matter. -/
theorem Mirrors.of_items {window : PosterCandidate × List ArchiveMessage}
    (h : t.Mirrors parser movie window) (hitems : t'.movieItems movie.id = t.movieItems movie.id) :
    t'.Mirrors parser movie window := ⟨h.posterMessageId, h.columns, hitems.trans h.items⟩

theorem Mirrors.parserConfidence_pos {window : PosterCandidate × List ArchiveMessage}
    {m : ArchiveMessage}
    (h : t.Mirrors parser movie window) (hposter : detectPoster m = some window.1) :
    0 < movie.parserConfidence := by
  have hcolumn : movie.parserConfidence = window.1.confidence := by
    rw [← h.columns]
    simp [setPoster, ArchiveParser.groupOf, finalizeGroup]
  rw [hcolumn]
  exact (detectPoster_bounds hposter).1

/-- **Revalidation brings the tables in step**: the rows of the movie are accepted as they are, and
its status is decided. -/
theorem Aligned.revalidateMovie {pre rest : List ArchiveMessage}
    {window : PosterCandidate × List ArchiveMessage}
    (h : t.Aligned parser channelId ms (movieWindows ms))
    (hms : ms = pre ++ window.1.message :: (window.2 ++ rest))
    (hposter : detectPoster window.1.message = some window.1)
    (hseg : ∀ m ∈ window.2, detectPoster m = none) (hasc : AscendingFrom 0 ms)
    (hbound : ∀ m ∈ ms, m.messageId < bigintMax) (hmirrors : t.Mirrors parser movie window)
    (hchannel : movie.archiveChannelId = channelId)
    (hstored : ∃ stored, t.movies.find? movie.id = some stored ∧
      stored.archiveChannelId = channelId)
    (hnext : ∀ other ∈ t.movies, other.archiveChannelId = movie.archiveChannelId →
      movie.posterMessageId < other.posterMessageId →
        (∀ m ∈ window.2, m.messageId < other.posterMessageId))
    (hrest : ∀ m ∈ rest, ∃ other ∈ t.movies, other.archiveChannelId = movie.archiveChannelId ∧
      movie.posterMessageId < other.posterMessageId ∧ other.posterMessageId ≤ m.messageId)
    (hothers : ∀ other ∈ t.channelMovies channelId, other.id ≠ movie.id → t.Decided other) :
    (t.revalidateMovie parser movie).1.InStep parser channelId ms := by
  have hrows : ∀ row ∈ t.qualities, row.movieId = movie.id → row.archiveChannelId = channelId := by
    intro row hrow hid
    obtain ⟨stored, hfind, hstored⟩ := hstored
    obtain ⟨owner, howner, hrow_channel, -⟩ := h.linked.rowMovie row hrow
    rw [hid, hfind] at howner
    cases howner
    exact hrow_channel.symm.trans hstored
  -- what lies where in the stream
  have hpairwise : (ms.map ArchiveMessage.messageId).Pairwise (· < ·) :=
    (List.pairwise_cons.1 hasc).2
  rw [hms, List.map_append, List.map_cons, List.map_append, List.pairwise_append,
    List.pairwise_cons] at hpairwise
  obtain ⟨-, ⟨hlater, -⟩, hbefore⟩ := hpairwise
  have hmessages : t.rangeMessages movie = window.1.message :: window.2 := by
    refine (hms ▸ h.stream).rangeMessages_eq_window hchannel hmirrors.posterMessageId
      (fun m hm => hbefore _ (List.mem_map_of_mem hm) _ List.mem_cons_self) (fun m hm => ?_)
      fun m hm hcovers => ?_
    · rcases List.mem_cons.1 hm with rfl | hm
      · exact ⟨hchannel.symm, hmirrors.posterMessageId.le, fun other _ _ hlt =>
          hmirrors.posterMessageId ▸ hlt⟩
      · refine ⟨hchannel.symm, ?_, fun other hother hother_channel hlt =>
          hnext other hother hother_channel hlt m hm⟩
        rw [hmirrors.posterMessageId]
        exact (hlater _ (List.mem_append_left _ (List.mem_map_of_mem hm))).le
    · obtain ⟨other, hother, hother_channel, hlt, hle⟩ := hrest m hm
      exact absurd (hcovers.2.2 other hother hother_channel hlt) (not_lt.2 hle)
  have hconfidence : 0 < movie.parserConfidence := hmirrors.parserConfidence_pos hposter
  rw [revalidateMovie_eq h.keys h.stream hbound hchannel hrows hconfidence hposter
    hmirrors.posterMessageId.symm hseg hmessages hmirrors.items]
  exact h.decide hothers

/-! ### The last movie -/

omit [UnicodeData] in
/-- A relation of lists up to a last element. -/
theorem forall₂_snoc_right {α β : Type*} {R : α → β → Prop} {l : List α} {us : List β} {u : β}
    (h : List.Forall₂ R l (us ++ [u])) :
    ∃ init a, l = init ++ [a] ∧ List.Forall₂ R init us ∧ R a u := by
  induction us generalizing l with
  | nil =>
      obtain ⟨a, rest, ha, hrest, rfl⟩ := List.forall₂_cons_right_iff.1 h
      cases hrest
      exact ⟨[], a, rfl, .nil, ha⟩
  | cons v us ih =>
      obtain ⟨b, rest, hb, hrest, rfl⟩ := List.forall₂_cons_right_iff.1 h
      obtain ⟨init, a, rfl, hinit, ha⟩ := ih hrest
      exact ⟨b :: init, a, rfl, .cons hb hinit, ha⟩

omit [UnicodeData] in
theorem forall₂_mem_left {α β : Type*} {R : α → β → Prop} {l : List α} {us : List β}
    (h : List.Forall₂ R l us) {a : α} (ha : a ∈ l) : ∃ u ∈ us, R a u := by
  induction h with
  | nil => cases ha
  | cons hb _ ih =>
      rcases List.mem_cons.1 ha with rfl | ha
      · exact ⟨_, List.mem_cons_self, hb⟩
      · obtain ⟨u, hu, hau⟩ := ih ha
        exact ⟨u, List.mem_cons_of_mem _ hu, hau⟩

/-- The movie of the last window, and the movies before it. -/
structure IsLast (parser : ArchiveParser) (t : ArchiveTables) (channelId : ℤ)
    (window : PosterCandidate × List ArchiveMessage)
    (windows : List (PosterCandidate × List ArchiveMessage)) (init : List Movie) (movie : Movie) :
    Prop where
  movies : t.channelMovies channelId = init ++ [movie]
  mirrors : t.Mirrors parser movie window
  others : List.Forall₂ (t.Mirrors parser) init windows
  before : ∀ other ∈ init, other.posterMessageId < movie.posterMessageId

/-- The last window of a stream is held by a last movie. -/
theorem Aligned.exists_last {pre seg : List ArchiveMessage} {m₀ : ArchiveMessage}
    {poster : PosterCandidate}
    (h : t.Aligned parser channelId ms (movieWindows pre ++ [(poster, seg)]))
    (hposter : detectPoster m₀ = some poster) (hpre : ∀ m ∈ pre, m.messageId < m₀.messageId) :
    ∃ init movie, IsLast parser t channelId (poster, seg) (movieWindows pre) init movie := by
  obtain ⟨init, movie, hmovies, hinit, hmirrors⟩ := forall₂_snoc_right h.movies
  refine ⟨init, movie, hmovies, hmirrors, hinit, fun other hother => ?_⟩
  obtain ⟨window, hwindow, hother⟩ := forall₂_mem_left hinit hother
  obtain ⟨⟨m, hm, hposter'⟩, -⟩ := mem_movieWindows hwindow
  have hlt := hpre m hm
  have hid : movie.posterMessageId = m₀.messageId := by
    rw [hmirrors.posterMessageId, message_of_detectPoster hposter]
  rw [hother.posterMessageId, message_of_detectPoster hposter', hid]
  exact hlt

section

variable {window : PosterCandidate × List ArchiveMessage} {init : List Movie} {messageId : ℕ}

theorem IsLast.mem (h : IsLast parser t channelId window windows init movie) :
    movie ∈ t.movies ∧ movie.archiveChannelId = channelId := by
  rw [← mem_channelMovies, h.movies]
  exact List.mem_append_right _ List.mem_cons_self

/-- No movie of the channel lies behind the last one. -/
theorem IsLast.le (h : IsLast parser t channelId window windows init movie) {other : Movie}
    (hother : other ∈ t.movies) (hchannel : other.archiveChannelId = channelId) :
    other.posterMessageId ≤ movie.posterMessageId := by
  have hmem : other ∈ init ++ [movie] := h.movies ▸ mem_channelMovies.2 ⟨hother, hchannel⟩
  rcases List.mem_append.1 hmem with hmem | hmem
  · exact (h.before other hmem).le
  · rw [List.mem_singleton.1 hmem]

/-- The last movie comes before every later message. -/
theorem IsLast.movieBefore?_eq (h : IsLast parser t channelId window windows init movie)
    (hkeys : t.UniqueKeys) (hlt : movie.posterMessageId < messageId)
    (hposter : t.posterMovie? channelId messageId = none) :
    t.movieBefore? channelId messageId = some movie := by
  obtain ⟨hmem, hchannel⟩ := h.mem
  have hcovers : t.Covers movie channelId messageId :=
    ⟨hchannel.symm, hlt.le, fun other hother hother_channel hother_lt =>
      absurd hother_lt (not_lt.2 (h.le hother (hother_channel.trans hchannel)))⟩
  exact hcovers.movieBefore?_eq hkeys hmem hposter

/-- Revalidating the last movie brings the tables in step. -/
theorem Aligned.revalidate_last {pre : List ArchiveMessage}
    (h : t.Aligned parser channelId ms (movieWindows ms))
    (hms : ms = pre ++ window.1.message :: window.2)
    (hposter : detectPoster window.1.message = some window.1)
    (hseg : ∀ m ∈ window.2, detectPoster m = none) (hasc : AscendingFrom 0 ms)
    (hbound : ∀ m ∈ ms, m.messageId < bigintMax)
    (hlast : IsLast parser t channelId window windows init movie)
    (hothers : ∀ other ∈ t.channelMovies channelId, other.id ≠ movie.id → t.Decided other) :
    (t.revalidateMovie parser movie).1.InStep parser channelId ms := by
  obtain ⟨hmem, hchannel⟩ := hlast.mem
  have hms' : ms = pre ++ window.1.message :: (window.2 ++ []) := by rw [List.append_nil, hms]
  refine h.revalidateMovie hms' hposter hseg hasc hbound hlast.mirrors hchannel
    ⟨movie, KeyedTable.find?_of_mem hmem, hchannel⟩ (fun other hother hother_channel hlt => ?_)
    (fun m hm => by cases hm) hothers
  exact absurd hlt (not_lt.2 (hlast.le hother (hother_channel.trans hchannel)))

end

/-! ### A message that is recorded -/

/-- The message is recorded behind the stream and not indexed yet. -/
structure Received (parser : ArchiveParser) (t : ArchiveTables) (channelId : ℤ)
    (ms : List ArchiveMessage) (message : ArchiveMessage) : Prop
    extends t.Aligned parser channelId (ms ++ [message]) (movieWindows ms) where
  decided : ∀ movie ∈ t.channelMovies channelId, t.Decided movie
  unposted : t.posterMovie? channelId message.messageId = none
  unattached : t.attachedQuality? channelId message.messageId = none
  ascending : AscendingFrom 0 (ms ++ [message])
  bounded : ∀ m ∈ ms ++ [message], m.messageId < bigintMax

omit [UnicodeData] in
theorem newer_of_ascending (hasc : AscendingFrom 0 (ms ++ [message])) :
    ∀ m ∈ ms, m.messageId < message.messageId := by
  intro m hm
  have hpairwise : ((ms ++ [message]).map ArchiveMessage.messageId).Pairwise (· < ·) :=
    (List.pairwise_cons.1 hasc).2
  rw [List.map_append, List.pairwise_append] at hpairwise
  exact hpairwise.2.2 _ (List.mem_map_of_mem hm) _ List.mem_cons_self

/-- **Recording a newer message** changes no movie and no row. -/
theorem InStep.recordMessage (h : t.InStep parser channelId ms)
    (hasc : AscendingFrom 0 (ms ++ [message]))
    (hbound : ∀ m ∈ ms ++ [message], m.messageId < bigintMax) :
    Received parser (t.recordMessage channelId message) channelId ms message := by
  have hnewer := newer_of_ascending hasc
  have hunseen : t.snapshot? channelId message.messageId = none :=
    h.stream.snapshot?_eq_none fun m hm => (hnewer m hm).ne
  obtain ⟨hposter, hrow⟩ := h.linked.unseen hunseen
  have hitems : ∀ movieId, (t.recordMessage channelId message).movieItems movieId =
      t.movieItems movieId := fun movieId => by
    rw [movieItems, movieQualities, qualities_recordMessage]
    rfl
  have hmovies : (t.recordMessage channelId message).channelMovies channelId =
      t.channelMovies channelId := by rw [channelMovies, movies_recordMessage, channelMovies]
  have hfits : (t.recordMessage channelId message).fitsColumns := by
    obtain ⟨hsnapshots, hmovies, hqualities⟩ := fitsColumns_iff.1 h.fits
    rw [ArchiveTables.recordMessage, hunseen]
    refine fitsColumns_iff.2 ⟨fun s hs => ?_, hmovies, hqualities⟩
    rcases KeyedTable.mem_of_mem_insert hs with rfl | hs
    · have hid := hbound message (List.mem_append_right _ List.mem_cons_self)
      simp [ArchiveMessageSnapshot.fits, newSnapshot, hid.le, integerMax]
    · exact hsnapshots s hs
  refine ⟨⟨h.keys.of_eq movies_recordMessage qualities_recordMessage, h.linked.recordMessage, hfits,
    h.stream.recordMessage hnewer, ?_⟩, fun movie hmovie => ?_, ?_, ?_, hasc, hbound⟩
  · rw [hmovies]
    exact h.movies.imp fun movie window hmirrors => hmirrors.of_items (hitems movie.id)
  · rw [hmovies] at hmovie
    rw [Decided, hitems]
    exact h.decided movie hmovie
  · rw [posterMovie?, movies_recordMessage]
    exact hposter
  · rw [attachedQuality?, qualities_recordMessage]
    exact hrow

section

variable {pre seg : List ArchiveMessage} {m₀ : ArchiveMessage} {poster : PosterCandidate}
  {init : List Movie}

/-- Before the first poster there is no movie. -/
theorem Received.movieBefore?_eq_none (h : Received parser t channelId ms message)
    (hms : ∀ m ∈ ms, detectPoster m = none) :
    t.channelMovies channelId = [] ∧ t.movieBefore? channelId message.messageId = none := by
  have hmovies := h.movies
  rw [movieWindows_of_none hms, List.forall₂_nil_right_iff] at hmovies
  refine ⟨hmovies, ?_⟩
  cases hbefore : t.movieBefore? channelId message.messageId with
  | none => rfl
  | some movie =>
      obtain ⟨hmem, hchannel, -⟩ := movieBefore?_eq_some hbefore
      have hmem := mem_channelMovies.2 ⟨hmem, hchannel⟩
      rw [hmovies] at hmem
      cases hmem

/-- A message before the first poster changes nothing. -/
theorem Received.inStep_of_none (h : Received parser t channelId ms message)
    (hms : ∀ m ∈ ms, detectPoster m = none) (hmessage : detectPoster message = none) :
    t.InStep parser channelId (ms ++ [message]) := by
  have hnone : ∀ m ∈ ms ++ [message], detectPoster m = none := by
    intro m hm
    rcases List.mem_append.1 hm with hm | hm
    · exact hms m hm
    · rw [List.mem_singleton.1 hm, hmessage]
  refine ⟨⟨h.keys, h.linked, h.fits, h.stream, ?_⟩, h.decided⟩
  rw [(h.movieBefore?_eq_none hms).1, movieWindows_of_none hnone]
  exact .nil

/-- The window that a message joins, and its movie. -/
theorem Received.exists_last (h : Received parser t channelId ms message)
    (hms : ms = pre ++ m₀ :: seg) (hposter : detectPoster m₀ = some poster)
    (hseg : ∀ m ∈ seg, detectPoster m = none) :
    ∃ init movie, IsLast parser t channelId (poster, seg) (movieWindows pre) init movie ∧
      t.movieBefore? channelId message.messageId = some movie := by
  have halign : t.Aligned parser channelId (ms ++ [message])
      (movieWindows pre ++ [(poster, seg)]) := by
    rw [← movieWindows_opened hposter hseg, ← hms]
    exact h.toAligned
  have hpre : ∀ m ∈ pre, m.messageId < m₀.messageId := by
    intro m hm
    have hpairwise : ((ms ++ [message]).map ArchiveMessage.messageId).Pairwise (· < ·) :=
      (List.pairwise_cons.1 h.ascending).2
    rw [hms, List.append_assoc, List.map_append, List.pairwise_append] at hpairwise
    exact hpairwise.2.2 _ (List.mem_map_of_mem hm) _ List.mem_cons_self
  obtain ⟨init, movie, hlast⟩ := halign.exists_last hposter hpre
  have hlt : movie.posterMessageId < message.messageId := by
    rw [hlast.mirrors.posterMessageId, message_of_detectPoster hposter]
    exact newer_of_ascending h.ascending m₀ (by rw [hms]; simp)
  exact ⟨init, movie, hlast, hlast.movieBefore?_eq h.keys hlt h.unposted⟩

/-- The tables once the last window has taken the message in. -/
theorem Received.joined (h : Received parser t channelId ms message) (hms : ms = pre ++ m₀ :: seg)
    (hposter : detectPoster m₀ = some poster) (hseg : ∀ m ∈ seg, detectPoster m = none)
    (hmessage : detectPoster message = none)
    (hlast : IsLast parser t channelId (poster, seg) (movieWindows pre) init movie)
    (hkeys : t'.UniqueKeys) (hlinked : t'.Linked) (hfits : t'.fitsColumns)
    (hstream : t'.HoldsStream channelId (ms ++ [message]))
    (hmovies : t'.channelMovies channelId = t.channelMovies channelId)
    (hothers : ∀ otherId, otherId ≠ movie.id → t'.movieItems otherId = t.movieItems otherId)
    (hitems : t'.movieItems movie.id = parser.windowItems (poster, seg ++ [message])) :
    t'.Aligned parser channelId (ms ++ [message]) (movieWindows (ms ++ [message])) ∧
      IsLast parser t' channelId (poster, seg ++ [message]) (movieWindows pre) init movie ∧
        ∀ other ∈ t'.channelMovies channelId, other.id ≠ movie.id → t'.Decided other := by
  -- the movies before the last one are not touched
  have hinit : ∀ other ∈ init, other.id ≠ movie.id := by
    intro other hother hid
    have hmem : other ∈ t.channelMovies channelId := hlast.movies ▸ List.mem_append_left _ hother
    have hsame : other = movie :=
      t.movies.ext_key (mem_channelMovies.1 hmem).1 hlast.mem.1 hid
    exact absurd (hlast.before other hother) (by rw [hsame]; exact lt_irrefl _)
  have hforall : List.Forall₂ (t'.Mirrors parser) init (movieWindows pre) := by
    have hboth :
        List.Forall₂ (fun other window => other.id ≠ movie.id ∧ t.Mirrors parser other window)
          init (movieWindows pre) := (List.forall₂_and_left init _).2 ⟨hinit, hlast.others⟩
    exact hboth.imp fun other window hother => hother.2.of_items (hothers other.id hother.1)
  have hmirrors : t'.Mirrors parser movie (poster, seg ++ [message]) :=
    ⟨hlast.mirrors.posterMessageId, setPoster_groupOf.trans hlast.mirrors.columns, hitems⟩
  have hseg' : ∀ m ∈ seg ++ [message], detectPoster m = none := by
    intro m hm
    rcases List.mem_append.1 hm with hm | hm
    · exact hseg m hm
    · rw [List.mem_singleton.1 hm, hmessage]
  have hwindows : movieWindows (ms ++ [message]) =
      movieWindows pre ++ [(poster, seg ++ [message])] := by
    rw [hms, List.append_assoc, List.cons_append, movieWindows_opened hposter hseg']
  refine ⟨⟨hkeys, hlinked, hfits, hstream, ?_⟩,
    ⟨hmovies.trans hlast.movies, hmirrors, hforall, hlast.before⟩, fun other hother hne => ?_⟩
  · rw [hmovies, hlast.movies, hwindows]
    exact List.rel_append hforall (.cons hmirrors .nil)
  · rw [Decided, hothers other.id hne]
    exact h.decided other (hmovies ▸ hother)

/-- Revalidating the movie that the message has joined brings the tables in step. -/
theorem Received.revalidate_joined (h : Received parser t channelId ms message)
    (hms : ms = pre ++ m₀ :: seg) (hposter : detectPoster m₀ = some poster)
    (hseg : ∀ m ∈ seg, detectPoster m = none) (hmessage : detectPoster message = none)
    (halign : t'.Aligned parser channelId (ms ++ [message]) (movieWindows (ms ++ [message])))
    (hlast : IsLast parser t' channelId (poster, seg ++ [message]) (movieWindows pre) init movie)
    (hothers : ∀ other ∈ t'.channelMovies channelId, other.id ≠ movie.id → t'.Decided other) :
    (t'.revalidateMovie parser movie).1.InStep parser channelId (ms ++ [message]) := by
  have hm₀ : poster.message = m₀ := message_of_detectPoster hposter
  have hwindow : ms ++ [message] = pre ++ poster.message :: (seg ++ [message]) := by
    rw [hms, hm₀, List.append_assoc, List.cons_append]
  refine halign.revalidate_last hwindow ?_ ?_ h.ascending h.bounded hlast hothers
  · rw [hm₀]
    exact hposter
  · intro m hm
    rcases List.mem_append.1 hm with hm | hm
    · exact hseg m hm
    · rw [List.mem_singleton.1 hm, hmessage]

/-- **A message that is no candidate**: its movie is revalidated as it is. -/
theorem Received.reconcileBoundary (h : Received parser t channelId ms message)
    (hmessage : detectPoster message = none) (hquality : detectQuality message = none) :
    (t.reconcileBoundary parser channelId message.messageId).InStep parser channelId
      (ms ++ [message]) := by
  rcases lastPoster_cases ms with hnone | ⟨pre, m₀, poster, seg, hms, hposter, hseg⟩
  · rw [ArchiveTables.reconcileBoundary, (h.movieBefore?_eq_none hnone).2]
    exact h.inStep_of_none hnone hmessage
  · obtain ⟨init, movie, hlast, hbefore⟩ := h.exists_last hms hposter hseg
    have hnewer : ∀ m ∈ seg, m.messageId < message.messageId := fun m hm =>
      newer_of_ascending h.ascending m (by rw [hms]; simp [hm])
    have hitems : parser.windowItems (poster, seg ++ [message]) =
        parser.windowItems (poster, seg) := by
      have hsnoc : parser.windowItems (poster, seg ++ [message]) =
          parser.windowItems (poster, seg) ∨ _ :=
        ArchiveParser.windowItems_snoc hnewer
      rcases hsnoc with hsame | ⟨item, ⟨quality, _, hdetect, _⟩, _⟩
      · exact hsame
      · rw [hquality] at hdetect
        cases hdetect
    obtain ⟨halign, hlast', hothers⟩ :=
      h.joined hms hposter hseg hmessage hlast h.keys h.linked h.fits
      h.stream rfl (fun _ _ => rfl) (hlast.mirrors.items.trans hitems.symm)
    rw [ArchiveTables.reconcileBoundary, hbefore]
    exact h.revalidate_joined hms hposter hseg hmessage halign hlast' hothers

/-- The range of the last movie reaches to the end of the stream. -/
theorem IsLast.rangeMessages_eq {window : PosterCandidate × List ArchiveMessage}
    {seg' : List ArchiveMessage} (h : IsLast parser t channelId window windows init movie)
    (hstream : t.HoldsStream channelId (pre ++ m₀ :: seg'))
    (hid : movie.posterMessageId = m₀.messageId) (hasc : AscendingFrom 0 (pre ++ m₀ :: seg')) :
    t.rangeMessages movie = m₀ :: seg' := by
  have hpairwise : ((pre ++ m₀ :: seg').map ArchiveMessage.messageId).Pairwise (· < ·) :=
    (List.pairwise_cons.1 hasc).2
  rw [List.map_append, List.map_cons, List.pairwise_append, List.pairwise_cons] at hpairwise
  obtain ⟨-, ⟨hlater, -⟩, hbefore⟩ := hpairwise
  have hchannel := h.mem.2
  have hstream : t.HoldsStream channelId (pre ++ m₀ :: (seg' ++ [])) := by rwa [List.append_nil]
  refine hstream.rangeMessages_eq_window hchannel hid
    (fun m hm => hbefore _ (List.mem_map_of_mem hm) _ List.mem_cons_self) (fun m hm => ?_)
    fun m hm => by cases hm
  refine ⟨hchannel.symm, ?_, fun other hother hother_channel hlt =>
    absurd hlt (not_lt.2 (h.le hother (hother_channel.trans hchannel)))⟩
  rcases List.mem_cons.1 hm with rfl | hm
  · exact hid.le
  · rw [hid]
    exact (hlater _ (List.mem_map_of_mem hm)).le

/-- The group that the candidate is looked for in. -/
theorem Received.parseMovieGroup_eq (h : Received parser t channelId ms message)
    (hms : ms = pre ++ m₀ :: seg) (hposter : detectPoster m₀ = some poster)
    (hseg : ∀ m ∈ seg, detectPoster m = none) (hmessage : detectPoster message = none)
    (hlast : IsLast parser t channelId (poster, seg) (movieWindows pre) init movie) :
    t.parseMovieGroup parser movie (some message.messageId) =
      some (parser.groupOf (some 32) (poster, seg ++ [message])) := by
  have hm₀ : poster.message = m₀ := message_of_detectPoster hposter
  have hid : movie.posterMessageId = m₀.messageId := by rw [hlast.mirrors.posterMessageId, hm₀]
  have hstream : ms ++ [message] = pre ++ m₀ :: (seg ++ [message]) := by
    rw [hms, List.append_assoc, List.cons_append]
  have hrange : t.rangeMessages movie = m₀ :: (seg ++ [message]) :=
    hlast.rangeMessages_eq (hstream ▸ h.stream) hid (hstream ▸ h.ascending)
  have hbounded : t.BoundedIn movie.archiveChannelId := hlast.mem.2 ▸ h.stream.boundedIn h.bounded
  have hthrough : t.movieMessages movie (some message.messageId) = m₀ :: (seg ++ [message]) := by
    rw [movieMessages_through hbounded (h.stream.unconflicted hlast.mem.2), hrange]
    refine List.filter_eq_self.2 fun m hm => decide_eq_true ?_
    have hm : m ∈ ms ++ [message] := by
      rw [hstream]
      exact List.mem_append_right _ hm
    rcases List.mem_append.1 hm with hm | hm
    · exact (newer_of_ascending h.ascending m hm).le
    · rw [List.mem_singleton.1 hm]
  have hseg' : ∀ m ∈ seg ++ [message], detectPoster m = none := by
    intro m hm
    rcases List.mem_append.1 hm with hm | hm
    · exact hseg m hm
    · rw [List.mem_singleton.1 hm, hmessage]
  refine parseMovieGroup_eq_some.2 ⟨hlast.mirrors.parserConfidence_pos hposter, poster,
    seg ++ [message], ⟨m₀, hthrough, hid.symm, hposter⟩, ?_⟩
  rw [segment_of_none hseg']

section

variable {group : ParsedMovieGroup}

theorem upsertQuality_of_none (hbefore : t.movieBefore? channelId message.messageId = some movie)
    (hgroup : t.parseMovieGroup parser movie (some message.messageId) = some group)
    (hfind : (group.qualities.find? fun item => item.messageId = message.messageId) = none) :
    ∃ result, t.upsertQuality parser channelId message = .ok (t, result) := by
  simp only [ArchiveTables.upsertQuality, hbefore, hgroup, hfind]
  exact ⟨_, rfl⟩

theorem upsertQuality_of_some {item : ParsedQuality}
    (hbefore : t.movieBefore? channelId message.messageId = some movie)
    (hgroup : t.parseMovieGroup parser movie (some message.messageId) = some group)
    (hfind : (group.qualities.find? fun item => item.messageId = message.messageId) = some item)
    (hfits : (newQuality 0 movie.id channelId item).fits) :
    ∃ result, t.upsertQuality parser channelId message =
      .ok (((t.upsertQualityRow movie.id channelId item).1.revalidateMovie parser movie).1,
        result) := by
  simp only [ArchiveTables.upsertQuality, hbefore, hgroup, hfind, hfits, Bool.not_true,
    Bool.false_eq_true, if_false]
  exact ⟨_, rfl⟩

end

/-- **A candidate**: the transaction goes through, and its row is in step with the group. -/
theorem Received.upsertQuality (hdigits : DecimalDigits)
    (h : Received parser t channelId ms message)
    (hmessage : detectPoster message = none) (htitles : TitlesFit message) :
    ∃ t' result, t.upsertQuality parser channelId message = .ok (t', result) ∧
      t'.InStep parser channelId (ms ++ [message]) := by
  rcases lastPoster_cases ms with hnone | ⟨pre, m₀, poster, seg, hms, hposter, hseg⟩
  · have hbefore := (h.movieBefore?_eq_none hnone).2
    exact ⟨t, ignored,
      by rw [ArchiveTables.upsertQuality, hbefore], h.inStep_of_none hnone hmessage⟩
  obtain ⟨init, movie, hlast, hbefore⟩ := h.exists_last hms hposter hseg
  obtain ⟨hmovie, hchannel⟩ := hlast.mem
  have hnewer : ∀ m ∈ seg, m.messageId < message.messageId := fun m hm =>
    newer_of_ascending h.ascending m (by rw [hms]; simp [hm])
  have hgroup := h.parseMovieGroup_eq hms hposter hseg hmessage hlast
  have hqualities : ∀ item, item ∈ (parser.groupOf (some 32) (poster, seg ++ [message])).qualities ↔
      item ∈ parser.windowItems (poster, seg ++ [message]) := fun item =>
    (parser.qualities_groupOf (poster, seg ++ [message])).mem_iff
  -- the items of the window are older than the message
  have hold : ∀ item ∈ parser.windowItems (poster, seg), item.messageId < message.messageId := by
    intro item hitem
    obtain ⟨m, hm, haccepts⟩ := ArchiveParser.accepts_of_mem_windowItems hitem
    rw [messageId_of_accepts haccepts]
    exact hnewer m hm
  have hsnoc : parser.windowItems (poster, seg ++ [message]) = parser.windowItems (poster, seg) ∨
      _ :=
    ArchiveParser.windowItems_snoc hnewer
  rcases hsnoc with hsame | ⟨item, haccepts, hset⟩
  · have hfind : ((parser.groupOf (some 32) (poster, seg ++ [message])).qualities.find?
        fun item => item.messageId = message.messageId) = none := by
      refine List.find?_eq_none.2 fun item hitem hid => ?_
      have hitem := hsame ▸ (hqualities item).1 hitem
      exact absurd (of_decide_eq_true hid) (hold item hitem).ne
    obtain ⟨halign, -, hothers⟩ := h.joined hms hposter hseg hmessage hlast h.keys h.linked h.fits
      h.stream rfl (fun _ _ => rfl) (hlast.mirrors.items.trans hsame.symm)
    obtain ⟨result, hresult⟩ := upsertQuality_of_none hbefore hgroup hfind
    exact ⟨t, result, hresult, halign, h.decided⟩
  · have hid : item.messageId = message.messageId := messageId_of_accepts haccepts
    have hfind : ((parser.groupOf (some 32) (poster, seg ++ [message])).qualities.find?
        fun item => item.messageId = message.messageId) = some item := by
      refine find?_of_unique ((hqualities item).2 (hset ▸ GroupBuilder.mem_setQuality_self))
        (decide_eq_true hid) fun item' hitem' hid' => ?_
      rcases GroupBuilder.mem_setQuality (hset ▸ (hqualities item').1 hitem') with hsame | hitem'
      · exact hsame
      · exact absurd (of_decide_eq_true hid') (hold item' hitem').ne
    have hbounded : message.messageId ≤ bigintMax :=
      (h.bounded message (List.mem_append_right _ List.mem_cons_self)).le
    have hfits : (newQuality 0 movie.id channelId item).fits :=
      haccepts.fits hdigits hbounded htitles
    -- the rows of the movie are older than the message, and no row is attached to it
    have hnewer_rows : ∀ row ∈ t.qualities, row.movieId = movie.id → row.quality = item.quality →
        row.archiveMessageId < item.messageId := by
      intro row hrow hmovie_id _
      have hitem : parsedColumns row ∈ parser.windowItems (poster, seg) :=
        hlast.mirrors.items ▸ mem_movieItems.2 ⟨row, hrow, hmovie_id, rfl⟩
      rw [hid]
      exact hold _ hitem
    have hunattached : ∀ row ∈ t.qualities, row.archiveChannelId = channelId →
        row.archiveMessageId ≠ item.messageId := by
      rw [hid]
      exact attachedQuality?_eq_none h.unattached
    have hrecorded : (t.snapshot? channelId item.messageId).isSome := by
      rw [hid]
      exact h.stream.isSome_snapshot? (List.mem_append_right _ List.mem_cons_self)
    have hlinked : (t.upsertQualityRow movie.id channelId item).1.Linked := by
      refine h.linked.upsertQualityRow (KeyedTable.find?_of_mem hmovie) hchannel ?_ hrecorded ?_
      · obtain ⟨-, -, hlt, -⟩ := movieBefore?_eq_some hbefore
        rw [hid]
        exact hlt
      · rw [hid]
        exact h.unposted
    have hstream : (t.upsertQualityRow movie.id channelId item).1.HoldsStream channelId
        (ms ++ [message]) := h.stream.of_eq snapshots_upsertQualityRow
    have hmovies : (t.upsertQualityRow movie.id channelId item).1.channelMovies channelId =
        t.channelMovies channelId := by rw [channelMovies, movies_upsertQualityRow, channelMovies]
    have hother_items : ∀ otherId, otherId ≠ movie.id →
        (t.upsertQualityRow movie.id channelId item).1.movieItems otherId =
          t.movieItems otherId := by
      intro otherId hne
      rw [movieItems, movieQualities_upsertQualityRow_of_ne hne hnewer_rows, movieItems]
    have hitems : (t.upsertQualityRow movie.id channelId item).1.movieItems movie.id =
        parser.windowItems (poster, seg ++ [message]) := by
      rw [movieItems_upsertQualityRow h.keys hnewer_rows, hlast.mirrors.items, hset]
    obtain ⟨halign, hlast', hothers⟩ := h.joined hms hposter hseg hmessage hlast
      (h.keys.upsertQualityRow hnewer_rows hunattached) hlinked
      (fitsColumns_upsertQualityRow h.fits hfits) hstream hmovies hother_items hitems
    obtain ⟨result, hresult⟩ := upsertQuality_of_some hbefore hgroup hfind hfits
    exact ⟨_, result, hresult, h.revalidate_joined hms hposter hseg hmessage halign hlast' hothers⟩

/-! ### A new poster -/

theorem parsePoster_of_detectPoster (hposter : detectPoster message = some poster) :
    parsePoster parser message = some (parser.groupOf none (poster, [])) := by
  have hasc : AscendingFrom 0 [message] := by simp [AscendingFrom, message.messageId_pos]
  simp [parsePoster, ArchiveParser.parse_eq hasc, movieWindows, hposter, segment]

omit [UnicodeData] in
theorem channelMovies_insertMovie {new : Movie} (hid : new.id = t.movies.freshKey)
    (hchannel : new.archiveChannelId = channelId) :
    (t.insertMovie new).channelMovies channelId = t.channelMovies channelId ++ [new] := by
  have hrows : (t.insertMovie new).movies.rows = t.movies.rows ++ [new] :=
    KeyedTable.rows_insert_freshKey hid
  rw [channelMovies, hrows, List.filter_append]
  simp [channelMovies, hchannel]

omit [UnicodeData] in
/-- A movie that is not there yet has no rows. -/
theorem Linked.movieItems_freshKey (h : t.Linked) : t.movieItems t.movies.freshKey = [] := by
  refine List.map_eq_nil_iff.2 (List.filter_eq_nil_iff.2 fun row hrow hid => ?_)
  obtain ⟨owner, howner, -⟩ := h.rowMovie row hrow
  rw [of_decide_eq_true hid, KeyedTable.find?_freshKey] at howner
  cases howner

/-- The movie of a new poster. -/
abbrev posterMovie (parser : ArchiveParser) (t : ArchiveTables) (channelId : ℤ)
    (poster : PosterCandidate) : Movie :=
  newMovie t.movies.freshKey channelId (parser.groupOf none (poster, []))

/-- The movie of a new poster is that of its window. -/
theorem Aligned.insertMovie (hdigits : DecimalDigits)
    (h : t.Aligned parser channelId (ms ++ [message]) windows)
    (hposter : detectPoster message = some poster) (htitles : TitlesFit message)
    (hid : message.messageId ≤ bigintMax)
    (hunposted : t.posterMovie? channelId message.messageId = none)
    (hunattached : ∀ row ∈ t.qualities, row.archiveChannelId = channelId →
      row.archiveMessageId ≠ message.messageId) :
    (t.insertMovie (posterMovie parser t channelId poster)).Aligned parser channelId
      (ms ++ [message]) (windows ++ [(poster, [])]) := by
  have hmessage : poster.message = message := message_of_detectPoster hposter
  have hplace : (posterMovie parser t channelId poster).posterMessageId = message.messageId := by
    rw [← hmessage]
    exact posterMessageId_groupOf (poster, [])
  have hrecorded : (t.snapshot? channelId message.messageId).isSome :=
    h.stream.isSome_snapshot? (List.mem_append_right _ List.mem_cons_self)
  obtain ⟨hsnapshots, hmovies, hqualities⟩ := fitsColumns_iff.1 h.fits
  refine ⟨h.keys.insertMovie (hplace ▸ hunposted),
    h.linked.insertMovie (KeyedTable.find?_freshKey _) (hplace ▸ hrecorded) (hplace ▸ hunattached),
    fitsColumns_iff.2 ⟨hsnapshots, fun movie hmovie => ?_, hqualities⟩, h.stream, ?_⟩
  · rcases KeyedTable.mem_of_mem_insert hmovie with rfl | hmovie
    · exact htitles.newMovie_fits hdigits hid hposter
    · exact hmovies movie hmovie
  · have hchannelMovies : (t.insertMovie (posterMovie parser t channelId poster)).channelMovies
        channelId = t.channelMovies channelId ++ [posterMovie parser t channelId poster] :=
      channelMovies_insertMovie rfl rfl
    rw [hchannelMovies]
    refine List.rel_append (h.movies.imp fun movie window hmirrors => hmirrors.of_items rfl)
      (.cons ⟨?_, ?_, ?_⟩ .nil)
    · rw [hplace, hmessage]
    · rfl
    · exact h.linked.movieItems_freshKey

/-- Deciding a pending movie writes its status and nothing else. -/
theorem Aligned.closePending (h : t.Aligned parser channelId ms windows) {previous : Movie} :
    (t.closePending previous).Aligned parser channelId ms windows ∧
      (t.closePending previous).qualities = t.qualities ∧
        ∀ other ∈ (t.closePending previous).movies, other.id ≠ previous.id → other ∈ t.movies := by
  unfold ArchiveTables.closePending
  split
  · refine ⟨h.setStatus, rfl, fun other hother hne => ?_⟩
    obtain ⟨movie, hmovie, rfl⟩ := mem_setStatus.1 hother
    unfold restatus at hne ⊢
    split
    · next hid => rw [if_pos hid] at hne; exact absurd hid hne
    · exact hmovie
  · exact ⟨h, rfl, fun _ hother _ => hother⟩

/-- A movie without rows that is not indexed is decided. -/
theorem decided_insertMovie (h : t.Linked) :
    (t.insertMovie (posterMovie parser t channelId poster)).Decided
      (posterMovie parser t channelId poster) := by
  have hitems : (t.insertMovie (posterMovie parser t channelId poster)).movieItems
      (posterMovie parser t channelId poster).id = [] := h.movieItems_freshKey
  rw [Decided, hitems]
  simp [newMovie]

/-- **A poster**: the movie before it is decided, and its own movie opens behind the others. -/
theorem Received.upsertPoster (hdigits : DecimalDigits) (h : Received parser t channelId ms message)
    (hposter : detectPoster message = some poster) (htitles : TitlesFit message) :
    (t.upsertPoster parser channelId (parser.groupOf none (poster, []))).1.InStep parser channelId
      (ms ++ [message]) := by
  have hid : (parser.groupOf none (poster, [])).posterMessageId = message.messageId := by
    rw [posterMessageId_groupOf, message_of_detectPoster hposter]
  have hbound : message.messageId ≤ bigintMax :=
    (h.bounded message (List.mem_append_right _ List.mem_cons_self)).le
  have hwindows : movieWindows (ms ++ [message]) = movieWindows ms ++ [(poster, [])] :=
    movieWindows_opened hposter fun m hm => by cases hm
  have hunattached := attachedQuality?_eq_none h.unattached
  rw [upsertPoster_eq (hid ▸ h.unposted)]
  rcases lastPoster_cases ms with hnone | ⟨pre, m₀, poster₀, seg, hms, hposter₀, hseg⟩
  · obtain ⟨hempty, hbefore⟩ := h.movieBefore?_eq_none hnone
    rw [addPoster_eq_of_none (hid ▸ hbefore), hid, hbefore]
    refine ⟨hwindows ▸ h.toAligned.insertMovie hdigits hposter htitles hbound h.unposted
      hunattached, fun movie hmovie => ?_⟩
    have hchannelMovies : (t.insertMovie (posterMovie parser t channelId poster)).channelMovies
        channelId = t.channelMovies channelId ++ [posterMovie parser t channelId poster] :=
      channelMovies_insertMovie rfl rfl
    have hmovie := hchannelMovies ▸ hmovie
    rw [hempty, List.nil_append, List.mem_singleton] at hmovie
    rw [hmovie]
    exact decided_insertMovie h.linked
  · obtain ⟨init, movie, hlast, hbefore⟩ := h.exists_last hms hposter₀ hseg
    obtain ⟨hmovie, hchannel⟩ := hlast.mem
    obtain ⟨stored, hstored, hstored_channel, -⟩ : ∃ stored,
        (t.addPoster channelId (parser.groupOf none (poster, []))).movies.find? movie.id =
          some stored ∧
          stored.archiveChannelId = movie.archiveChannelId ∧ _ := find?_addPoster hmovie
    rw [hid, hbefore]
    rw [addPoster_eq (hid ▸ hbefore)] at hstored ⊢
    obtain ⟨hclosed, hqualities, hkept⟩ :
        (t.closePending movie).Aligned parser channelId (ms ++ [message]) (movieWindows ms) ∧ _ ∧
          _ :=
      h.toAligned.closePending
    have hsame : SamePlaces t (t.closePending movie) := samePlaces_closePending
    have halign : ((t.closePending movie).insertMovie
        (posterMovie parser (t.closePending movie) channelId poster)).Aligned parser channelId
          (ms ++ [message]) (movieWindows (ms ++ [message])) := by
      rw [hwindows]
      exact hclosed.insertMovie hdigits hposter htitles hbound
        (hsame.posterMovie?_eq_none h.unposted) (hqualities ▸ hunattached)
    have hitems : ∀ movieId, ((t.closePending movie).insertMovie
        (posterMovie parser (t.closePending movie) channelId poster)).movieItems movieId =
          t.movieItems movieId := fun movieId => by
      rw [movieItems, movieItems, movieQualities, movieQualities, ← hqualities]
      rfl
    have hm₀ : poster₀.message = m₀ := message_of_detectPoster hposter₀
    have hnew_id : (posterMovie parser (t.closePending movie) channelId poster).posterMessageId =
        message.messageId := hid
    have hplace : movie.posterMessageId = m₀.messageId := by
      rw [hlast.mirrors.posterMessageId, hm₀]
    have hlt : movie.posterMessageId < message.messageId := by
      rw [hplace]
      exact newer_of_ascending h.ascending m₀ (by rw [hms]; simp)
    have hsplit : ms ++ [message] = pre ++ poster₀.message :: (seg ++ [message]) := by
      rw [hms, hm₀, List.append_assoc, List.cons_append]
    refine halign.revalidateMovie hsplit (hm₀.symm ▸ hposter₀) hseg h.ascending h.bounded
      (hlast.mirrors.of_items (hitems movie.id)) hchannel
      ⟨stored, hstored, hstored_channel.trans hchannel⟩
        (fun other hother hother_channel hbehind => ?_)
      (fun m hm => ?_) (fun other hother hne => ?_)
    · -- only the new poster lies behind, and the whole window is before it
      intro m hm
      rcases KeyedTable.mem_of_mem_insert hother with rfl | hold
      · rw [hnew_id]
        exact newer_of_ascending h.ascending m (by rw [hms]; simp [hm])
      · obtain ⟨old, hold, -, hold_channel, hold_place⟩ := hsame.movie_origin hold
        have hle := hlast.le hold (hold_channel.trans (hother_channel.trans hchannel))
        rw [hold_place] at hle
        exact absurd hbehind (not_lt.2 hle)
    · rw [List.mem_singleton.1 hm]
      have hfresh : (t.closePending movie).movies.find?
          (posterMovie parser (t.closePending movie) channelId poster).id = none :=
        KeyedTable.find?_freshKey _
      exact ⟨_, (KeyedTable.mem_insert hfresh).2 (.inl rfl), hchannel.symm, hnew_id ▸ hlt,
        hnew_id.le⟩
    · have hmem := (mem_channelMovies.1 hother)
      rcases KeyedTable.mem_of_mem_insert hmem.1 with rfl | hold
      · exact decided_insertMovie hclosed.linked
      · rw [Decided, hitems]
        exact h.decided other (mem_channelMovies.2 ⟨hkept other hold hne, hmem.2⟩)

end

end

end ArchiveTables

end CineGate
