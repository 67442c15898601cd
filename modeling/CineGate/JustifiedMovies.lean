/-
**Indexed movies are justified, unless a call bypasses them.**

A call that writes to a message should revalidate the movie in whose range the message lies.  Two
paths do not: a message that is attached to one movie while it lies in the range of another, and a
candidate that the parser does not accept.  In every run whose calls of these two kinds make no
difference to the movie they bypass, every indexed movie is justified in every state.

* `ArchiveTables.Unaffected`, `ArchiveTables.Bypasses` — no difference, and the two paths;
* `ArchiveTables.KeepsEvidence` — the condition on a call;
* `ArchiveTables.OnlyTouches` — what a call leaves of the other movies;
* `ArchiveTables.indexed_movies_are_justified` — the result.
-/

import CineGate.MovieEvidence
import CineGate.Transition

set_option relaxedAutoImplicit false
set_option autoImplicit false

namespace CineGate

namespace ArchiveTables

/-! ### The condition -/

section Condition

variable [UnicodeData] (parser : ArchiveParser)

/-- The poster that opens the range of a movie. -/
def openingPoster (t : ArchiveTables) (movie : Movie) : Option PosterCandidate :=
  (t.messageAt movie.archiveChannelId movie.posterMessageId).bind detectPoster

/-- The content of the message makes no difference to the group of the movie: the group has been
shut before it, or the message plays the role that the recorded one played. -/
def Unaffected (t : ArchiveTables) (movie : Movie) (message : ArchiveMessage) : Prop :=
  ∀ poster, t.openingPoster movie = some poster →
    ({} : Outline).isShut parser (roles poster (t.messagesBefore movie message.messageId)) ∨
      role poster message = roleOf poster (t.messageAt movie.archiveChannelId message.messageId)

/-- The call writes to its message without a revalidation of the movie in whose range it lies: the
message is attached to another movie, or it is a candidate that the movie does not accept. -/
def Bypasses (t : ArchiveTables) (c : ArchiveCall) (movie : Movie) : Prop :=
  (∃ row, t.attachedQuality? c.channelId c.message.messageId = some row ∧ row.movieId ≠ movie.id) ∨
    t.attachedQuality? c.channelId c.message.messageId = none ∧
      (c.message.mediaKind = .video ∨ c.message.mediaKind = .document) ∧
      (extractQuality (c.message.caption.getD [])).isSome ∧
      ∀ poster, t.openingPoster movie = some poster →
        ∀ quality, effect poster c.message ≠ .accepted quality

/-- The call keeps the evidence of the movie in whose range its message lies. -/
structure KeepsEvidence (t : ArchiveTables) (c : ArchiveCall) : Prop where
  bounded : c.fate t ≠ .kept → c.message.messageId ≠ bigintMax
  conflicted : c.fate t = .conflicted → ∀ movie,
    t.movieBefore? c.channelId c.message.messageId = some movie → movie.status = .indexed →
      ∀ row, t.attachedQuality? c.channelId c.message.messageId = some row → row.movieId = movie.id
  recorded : c.fate t = .recorded → t.posterMovie? c.channelId c.message.messageId = none →
    ∀ movie, t.movieBefore? c.channelId c.message.messageId = some movie →
      movie.status = .indexed → t.Bypasses c movie → t.Unaffected parser movie c.message

end Condition

/-! ### What a call leaves of the other movies -/

variable {t t' t'' : ArchiveTables} {channelId : ℤ} {messageId : ℕ}

/-- The movies that are not touched keep their row, their rows and the bounds of their range. -/
structure OnlyTouches (t t' : ArchiveTables) (touched : ℕ → Prop) : Prop where
  movies : ∀ movie ∈ t'.movies, ¬ touched movie.id → movie ∈ t.movies
  rows : ∀ row, ¬ touched row.movieId → (row ∈ t'.qualities ↔ row ∈ t.qualities)
  inRange : ∀ movie ∈ t.movies, ¬ touched movie.id → t'.inRange movie = t.inRange movie
  snapshots : t'.snapshots = t.snapshots

theorem OnlyTouches.refl {touched : ℕ → Prop} : OnlyTouches t t touched :=
  ⟨fun _ h _ => h, fun _ _ => Iff.rfl, fun _ _ _ => rfl, rfl⟩

theorem OnlyTouches.trans {touched : ℕ → Prop} (h : OnlyTouches t t' touched)
    (h' : OnlyTouches t' t'' touched)
    (hkept : ∀ movie ∈ t.movies, ¬ touched movie.id → movie ∈ t'.movies) :
    OnlyTouches t t'' touched :=
  ⟨fun movie hmovie hnot => h.movies movie (h'.movies movie hmovie hnot) hnot,
    fun row hnot => (h'.rows row hnot).trans (h.rows row hnot),
    fun movie hmovie hnot =>
      (h'.inRange movie (hkept movie hmovie hnot) hnot).trans (h.inRange movie hmovie hnot),
    h'.snapshots.trans h.snapshots⟩

theorem mem_updateMovie_of_ne {movie : Movie} {movieId : ℕ} {f : Movie → Movie}
    {hf : ∀ movie, (f movie).id = movie.id} (hne : movie.id ≠ movieId) :
    movie ∈ (t.updateMovie movieId f hf).movies ↔ movie ∈ t.movies := by
  constructor
  · intro h
    have h := KeyedTable.find?_of_mem h
    rw [find?_updateMovie, if_neg hne] at h
    exact KeyedTable.mem_of_find? h
  · intro h
    refine KeyedTable.mem_of_find? (k := movie.id) ?_
    rw [find?_updateMovie, if_neg hne]
    exact KeyedTable.find?_of_mem h

theorem onlyTouches_updateMovie {movieId : ℕ} {f : Movie → Movie}
    {hf : ∀ movie, (f movie).id = movie.id}
    (hplace : ∀ movie, moviePlace (f movie) = moviePlace movie) :
    OnlyTouches t (t.updateMovie movieId f hf) (· = movieId) :=
  ⟨fun _ hmovie hne => (mem_updateMovie_of_ne hne).1 hmovie, fun _ _ => Iff.rfl,
    fun _ _ _ => inRange_eq_of_samePlaces (samePlaces_updateMovie hplace) rfl, rfl⟩

theorem onlyTouches_modifyQualities {movieId : ℕ} {f : MovieQuality → MovieQuality}
    {hf : ∀ row, (f row).id = row.id} (hplace : ∀ row, rowPlace (f row) = rowPlace row)
    (hother : ∀ row ∈ t.qualities, row.movieId ≠ movieId → f row = row) :
    OnlyTouches t { t with qualities := t.qualities.modify f hf } (· = movieId) := by
  have hsame : SamePlaces t { t with qualities := t.qualities.modify f hf } :=
    samePlaces_modifyQualities hplace
  refine ⟨fun _ hmovie _ => hmovie, fun row hne => ?_,
    fun _ _ _ => inRange_eq_of_samePlaces hsame rfl, rfl⟩
  constructor
  · intro hrow
    obtain ⟨row₀, hrow₀, rfl⟩ := List.mem_map.1 hrow
    have hmovie : (f row₀).movieId = row₀.movieId := congrArg Prod.fst (hplace row₀)
    rw [hother row₀ hrow₀ (hmovie ▸ hne)]
    exact hrow₀
  · intro hrow
    exact List.mem_map.2 ⟨row, hrow, hother row hrow hne⟩

theorem onlyTouches_updateQuality {row : MovieQuality} {f : MovieQuality → MovieQuality}
    {hf : ∀ row, (f row).id = row.id} (hrow : row ∈ t.qualities)
    (hplace : ∀ row, rowPlace (f row) = rowPlace row) :
    OnlyTouches t (t.updateQuality row.id f hf) (· = row.movieId) := by
  refine onlyTouches_modifyQualities (fun row => ?_) fun other hother hne => if_neg fun hid =>
    hne ?_
  · split
    · exact hplace row
    · rfl
  · rw [t.qualities.ext_key hother hrow hid]

theorem onlyTouches_revalidateMovie [UnicodeData] {parser : ArchiveParser} {movie : Movie} :
    OnlyTouches t (t.revalidateMovie parser movie).1 (· = movie.id) := by
  have hrows : OnlyTouches t (t.revalidateAttachedQualities parser movie) (· = movie.id) := by
    refine onlyTouches_modifyQualities (fun row => ?_) fun row _ hne => if_neg hne
    split
    · exact (revalidateRow_frame _ row).2.1
    · rfl
  exact hrows.trans (onlyTouches_updateMovie fun _ => rfl) fun _ hmovie _ => hmovie

theorem onlyTouches_upsertQualityRow {movieId : ℕ} {parsed : ParsedQuality} :
    OnlyTouches t (t.upsertQualityRow movieId channelId parsed).1 (· = movieId) := by
  unfold upsertQualityRow
  split
  · refine ⟨fun _ h _ => h, fun row hne => ?_, fun _ _ _ => rfl, rfl⟩
    have hfresh : t.qualities.find? (newQuality t.qualities.freshKey movieId channelId parsed).id =
        none := KeyedTable.find?_freshKey _
    refine (KeyedTable.mem_insert hfresh).trans (or_iff_right ?_)
    rintro rfl
    exact hne rfl
  · next row hrow =>
      have hfound := List.find?_some hrow
      simp only [Bool.and_eq_true, decide_eq_true_eq] at hfound
      split
      · refine ⟨fun _ h _ => h, fun other hne => ?_, fun _ _ _ => rfl, rfl⟩
        have hmem : row ∈ t.qualities := List.mem_of_find?_eq_some hrow
        constructor
        · intro hother
          rcases mem_updateQuality hmem hother with ⟨hother, -⟩ | rfl
          · exact hother
          · exact absurd hfound.1 hne
        · intro hother
          refine mem_updateQuality_of_ne hother fun hid => hne ?_
          rw [t.qualities.ext_key hother hmem hid]
          exact hfound.1
      · exact .refl

/-- A new poster outside the range of a movie leaves its bounds. -/
theorem inRange_insertMovie {movie new : Movie} (hnew : t.movies.find? new.id = none)
    (hout : ¬ t.Covers movie new.archiveChannelId new.posterMessageId) :
    (t.insertMovie new).inRange movie = t.inRange movie := by
  funext s
  rw [Bool.eq_iff_iff, inRange_iff, inRange_iff]
  refine and_congr_right fun hchannel => and_congr_right fun hle => ?_
  constructor
  · intro h other hother
    exact h other ((KeyedTable.mem_insert hnew).2 (.inr hother))
  · intro h other hother hsame hlt
    rcases KeyedTable.mem_of_mem_insert hother with rfl | hother
    · -- otherwise the movie would cover the new poster
      by_contra hnot
      refine hout ⟨hsame, hlt.le, fun other' hother' hsame' hlt' => ?_⟩
      exact (not_lt.1 hnot).trans_lt (h other' hother' hsame' hlt')
    · exact h other hother hsame hlt

theorem onlyTouches_closePending {previous : Movie} :
    OnlyTouches t (t.closePending previous) (· = previous.id) := by
  unfold closePending
  split
  · exact onlyTouches_updateMovie fun _ => rfl
  · exact .refl

theorem OnlyTouches.mono {touched touched' : ℕ → Prop} (h : OnlyTouches t t' touched)
    (hle : ∀ id, touched id → touched' id) : OnlyTouches t t' touched' :=
  ⟨fun movie hmovie hnot => h.movies movie hmovie fun htouched => hnot (hle _ htouched),
    fun row hnot => h.rows row fun htouched => hnot (hle _ htouched),
    fun movie hmovie hnot => h.inRange movie hmovie fun htouched => hnot (hle _ htouched),
    h.snapshots⟩

/-- A new poster touches the movie before it and its own. -/
theorem onlyTouches_insertMovie {new : Movie} (hnew : t.movies.find? new.id = none)
    {touched : ℕ → Prop} (hself : touched new.id)
    (hout : ∀ movie ∈ t.movies, ¬ touched movie.id →
      ¬ t.Covers movie new.archiveChannelId new.posterMessageId) :
    OnlyTouches t (t.insertMovie new) touched := by
  refine ⟨fun movie hmovie hnot => ?_, fun _ _ => Iff.rfl,
    fun movie hmovie hnot => inRange_insertMovie hnew (hout movie hmovie hnot), rfl⟩
  rcases KeyedTable.mem_of_mem_insert hmovie with rfl | hmovie
  · exact absurd hself hnot
  · exact hmovie

/-! ### Movies that are not revalidated -/

section Evidence

variable [UnicodeData] {parser : ArchiveParser} {movie : Movie} {touched : ℕ → Prop}

omit [UnicodeData] in
theorem Covers.of_movies (h : t'.movies = t.movies) :
    t'.Covers movie channelId messageId ↔ t.Covers movie channelId messageId := by
  rw [Covers, h, Covers]

/-- A movie in whose range nothing has changed keeps its evidence. -/
theorem Evidenced.untouched (h : t.Evidenced parser movie) {t₁ : ArchiveTables}
    (hchange : ChangesOnly t t₁ channelId messageId) (hmovies : t₁.movies = t.movies)
    (hqualities : t₁.qualities = t.qualities) (htouches : OnlyTouches t₁ t' touched)
    (hmovie : movie ∈ t₁.movies) (hnot : ¬ touched movie.id)
    (hout : ¬ t.Covers movie channelId messageId) : t'.Evidenced parser movie := by
  have hrange : t₁.inRange movie = t.inRange movie := by
    funext s
    rw [Bool.eq_iff_iff, inRange_iff, inRange_iff, Covers.of_movies hmovies]
  refine h.frame (fun row hid => ?_) ?_
  · rw [htouches.rows row (hid ▸ hnot), hqualities]
  · rw [← hchange.rangeSnapshots_eq hrange hout, rangeSnapshots, htouches.inRange movie hmovie hnot,
      htouches.snapshots, rangeSnapshots]

/-- A movie whose evidence opens with its poster. -/
theorem Evidenced.opening (h : t.Evidenced parser movie)
    (hrecorded : (t.snapshot? movie.archiveChannelId movie.posterMessageId).isSome) :
    ∃ poster m₀ rest, t.messageAt movie.archiveChannelId movie.posterMessageId = some m₀ ∧
      t.openingPoster movie = some poster ∧ t.rangeMessages movie = m₀ :: rest ∧
      m₀.messageId = movie.posterMessageId ∧ detectPoster m₀ = some poster ∧
      ∀ row ∈ t.qualities, row.movieId = movie.id →
        (row.archiveMessageId, row.quality) ∈
          (parser.outlineOf (poster, segment rest)).entries := by
  obtain ⟨s₀, hs₀⟩ := Option.isSome_iff_exists.1 hrecorded
  have hm₀ : t.messageAt movie.archiveChannelId movie.posterMessageId = some s₀.message := by
    rw [messageAt, hs₀, Option.map_some]
  obtain ⟨hid, rest, hrange⟩ := rangeMessages_of_messageAt hm₀
  obtain ⟨poster, rest', ⟨m₀, hopens, -, hposter⟩, hrows⟩ := h.accepted
  obtain ⟨rfl, rfl⟩ := List.cons.inj (hrange.symm.trans hopens)
  refine ⟨poster, s₀.message, rest, hm₀, ?_, hrange, hid, hposter, hrows⟩
  rw [openingPoster, hm₀, Option.bind_some, hposter]

/-- The range of a movie with evidence when a message of it is recorded: its poster opens it, no
message is in conflict, and the message alone has changed. -/
structure Records (parser : ArchiveParser) (t : ArchiveTables) (movie : Movie) (channelId : ℤ)
    (message : ArchiveMessage) (poster : PosterCandidate) (m₀ : ArchiveMessage) : Prop where
  opening : t.openingPoster movie = some poster
  first : m₀.messageId = movie.posterMessageId
  detected : detectPoster m₀ = some poster
  range : (t.recordMessage channelId message).rangeMessages movie =
    m₀ :: (t.messagesBefore movie message.messageId ++
      message :: t.messagesAfter movie message.messageId)
  unconflicted : ∀ s ∈ (t.recordMessage channelId message).rangeSnapshots movie,
    s.conflicted = false
  rows : ∀ row ∈ t.qualities, row.movieId = movie.id → (row.archiveMessageId, row.quality) ∈
    (parser.outlineOf (poster, segment (t.messagesBefore movie message.messageId ++
      ((t.messageAt channelId message.messageId).toList ++
        t.messagesAfter movie message.messageId)))).entries

theorem Evidenced.records (h : t.Evidenced parser movie) {message : ArchiveMessage}
    (hrecorded : (t.snapshot? movie.archiveChannelId movie.posterMessageId).isSome)
    (hcovers : t.Covers movie channelId message.messageId)
    (hlt : movie.posterMessageId < message.messageId) :
    ∃ poster m₀, Records parser t movie channelId message poster m₀ := by
  obtain ⟨poster, m₀, rest, hm₀, hopening, hrange, hid, hposter, hrows⟩ := h.opening hrecorded
  have hchange : ChangesOnly t (t.recordMessage channelId message) channelId message.messageId :=
    changesOnly_recordMessage
  have hinRange : (t.recordMessage channelId message).inRange movie = t.inRange movie :=
    inRange_eq_of_samePlaces samePlaces_recordMessage rfl
  obtain ⟨hbefore, hafter⟩ := hchange.messagesBefore_eq hinRange
  have hsplit := rangeMessages_eq hrange hid hcovers hlt
  -- the range after the recording splits at the same place
  have hnew : (t.recordMessage channelId message).messageAt channelId message.messageId =
      some message := by
    rw [messageAt, snapshot?_recordMessage, if_pos rfl]
    rfl
  have hm₀' : (t.recordMessage channelId message).messageAt movie.archiveChannelId
      movie.posterMessageId = some m₀ := by
    rw [messageAt, snapshot?_recordMessage, if_neg, ← messageAt, hm₀]
    exact fun hkey => hlt.ne (Prod.ext_iff.1 (toLex.injective hkey)).2
  obtain ⟨-, rest', hrange'⟩ := rangeMessages_of_messageAt hm₀'
  have hsplit' := rangeMessages_eq hrange' hid
    ((Covers.of_movies movies_recordMessage).2 hcovers) hlt
  rw [hbefore, hafter, hnew] at hsplit'
  refine ⟨poster, m₀, hopening, hid, hposter, hsplit', fun s hs => ?_, fun row hrow hrow_id => ?_⟩
  · obtain ⟨hs, hs_range⟩ := mem_rangeSnapshots.1 hs
    have hfind : (t.recordMessage channelId message).snapshot? s.archiveChannelId s.messageId =
        some s := KeyedTable.find?_of_mem hs
    rw [snapshot?_recordMessage] at hfind
    split at hfind
    · cases hfind
      rfl
    · rw [hinRange] at hs_range
      exact h.unconflicted s (mem_rangeSnapshots.2 ⟨KeyedTable.mem_of_find? hfind, hs_range⟩)
  · rw [← (List.cons.inj (hrange.symm.trans hsplit)).2]
    exact hrows row hrow hrow_id

/-- **A movie that the new content of a message makes no difference to keeps its evidence.** -/
theorem Evidenced.unaffected (h : t.Evidenced parser movie) {message : ArchiveMessage}
    (hrecorded : (t.snapshot? movie.archiveChannelId movie.posterMessageId).isSome)
    (hcovers : t.Covers movie channelId message.messageId)
    (hlt : movie.posterMessageId < message.messageId)
    (hunaffected : t.Unaffected parser movie message)
    (htouches : OnlyTouches (t.recordMessage channelId message) t' touched)
    (hmovie : movie ∈ t.movies) (hnot : ¬ touched movie.id) : t'.Evidenced parser movie := by
  obtain ⟨poster, m₀, hrecords⟩ := h.records hrecorded hcovers hlt
  have hchannel : channelId = movie.archiveChannelId := hcovers.1
  have hfinal : t'.rangeSnapshots movie =
      (t.recordMessage channelId message).rangeSnapshots movie := by
    rw [rangeSnapshots, htouches.inRange movie (by rw [movies_recordMessage]; exact hmovie) hnot,
      htouches.snapshots, rangeSnapshots]
  have hold : ∀ m, t.messageAt channelId message.messageId = some m →
      m.messageId = message.messageId := by
    intro m hm
    obtain ⟨s, hs, rfl⟩ := Option.map_eq_some_iff.1 hm
    have hkey : s.key = toLex (channelId, message.messageId) := KeyedTable.key_of_find? hs
    exact (Prod.ext_iff.1 (toLex.injective hkey)).2
  -- the new message is read like the one it replaces
  have hsame : parser.outlineOf (poster, segment (t.messagesBefore movie message.messageId ++
      ((t.messageAt channelId message.messageId).toList ++
        t.messagesAfter movie message.messageId))) =
      parser.outlineOf (poster, segment (t.messagesBefore movie message.messageId ++
        message :: t.messagesAfter movie message.messageId)) := by
    refine outlineOf_replace hold ?_
    rw [hchannel]
    exact hunaffected poster hrecords.opening
  have hrow_mem : ∀ row : MovieQuality, row.movieId = movie.id →
      (row ∈ t'.qualities ↔ row ∈ t.qualities) := fun row hid => by
    rw [htouches.rows row (hid ▸ hnot), qualities_recordMessage]
  obtain ⟨row, hrow, hrow_id⟩ := h.attached
  refine ⟨h.parserConfidence, ⟨row, (hrow_mem row hrow_id).2 hrow, hrow_id⟩, ?_, poster,
    t.messagesBefore movie message.messageId ++ message :: t.messagesAfter movie message.messageId,
    ⟨m₀, ?_, hrecords.first, hrecords.detected⟩, fun row hrow hid => ?_⟩
  · rw [hfinal]
    exact hrecords.unconflicted
  · rw [rangeMessages, hfinal]
    exact hrecords.range
  · rw [← hsame]
    exact hrecords.rows row ((hrow_mem row hid).1 hrow) hid

omit [UnicodeData] in
/-- The messages before a message precede it. -/
theorem lt_of_mem_messagesBefore {m : ArchiveMessage} (h : m ∈ t.messagesBefore movie messageId) :
    m.messageId < messageId := by
  obtain ⟨s, hs, rfl⟩ := List.mem_map.1 h
  have hs := (List.mem_filter.1 hs).2
  simp only [Bool.and_eq_true, decide_eq_true_eq] at hs
  exact hs.2

omit [UnicodeData] in
theorem lt_of_mem_messagesAfter {m : ArchiveMessage} (h : m ∈ t.messagesAfter movie messageId) :
    messageId < m.messageId := by
  obtain ⟨s, hs, rfl⟩ := List.mem_map.1 h
  exact of_decide_eq_true (List.mem_filter.1 hs).2

/-- **A candidate that an open group accepts is found** when the movie is parsed up to it. -/
theorem Evidenced.groupQuality?_ne_none (h : t.Evidenced parser movie) {message : ArchiveMessage}
    (hrecorded : (t.snapshot? movie.archiveChannelId movie.posterMessageId).isSome)
    (hcovers : t.Covers movie channelId message.messageId)
    (hlt : movie.posterMessageId < message.messageId)
    (hbound : (t.recordMessage channelId message).Bounded) (hposter : detectPoster message = none)
    {poster : PosterCandidate} (hopening : t.openingPoster movie = some poster)
    (hopen : ({} : Outline).isShut parser
      (roles poster (t.messagesBefore movie message.messageId)) =
      false) {quality : Resolution} (heffect : effect poster message = .accepted quality) :
    groupQuality? ((t.recordMessage channelId message).parseMovieGroup parser movie
      (some message.messageId)) message.messageId ≠ none := by
  obtain ⟨poster', m₀, hrecords⟩ := h.records hrecorded hcovers hlt
  obtain rfl : poster = poster' := Option.some.inj (hopening.symm.trans hrecords.opening)
  have hmessages : (t.recordMessage channelId message).movieMessages movie
      (some message.messageId) = m₀ :: (t.messagesBefore movie message.messageId ++ [message]) := by
    rw [movieMessages_through hbound.boundedIn hrecords.unconflicted, hrecords.range,
      List.filter_cons_of_pos (by simpa [hrecords.first] using hlt.le), List.filter_append,
      List.filter_cons_of_pos (by simp), List.filter_eq_self.2, List.filter_eq_nil_iff.2]
    · intro m hm
      simpa using lt_of_mem_messagesAfter hm
    · intro m hm
      simpa using (lt_of_mem_messagesBefore hm).le
  have hgroup : (t.recordMessage channelId message).parseMovieGroup parser movie
      (some message.messageId) = some (parser.groupOf (some 32)
        (poster, segment (t.messagesBefore movie message.messageId ++ [message]))) :=
    parseMovieGroup_eq_some.2 ⟨h.parserConfidence, poster, _,
      ⟨m₀, hmessages, hrecords.first, hrecords.detected⟩, rfl⟩
  have hrole : role poster message = some (.accepted quality) := by
    simp [role, hposter, heffect]
  have hentry := mem_entries_snoc hopen (fun m hm => lt_of_mem_messagesBefore hm) hrole
  obtain ⟨item, hitem, hitem_id, -⟩ : ∃ item ∈ (parser.groupOf (some 32) (poster,
      segment (t.messagesBefore movie message.messageId ++ [message]))).qualities,
        item.messageId = message.messageId ∧ item.quality = quality :=
    ArchiveParser.mem_groupOf_iff.2 hentry
  rw [hgroup, groupQuality?, Option.bind_some]
  intro hnone
  have hnot := List.find?_eq_none.1 hnone item hitem
  simp [hitem_id] at hnot

end Evidence

/-! ### Movies that are revalidated -/

section Revisits

variable [UnicodeData] {parser : ArchiveParser} {message : ArchiveMessage}

variable (parser) in
/-- Every movie that is touched and left indexed has evidence, and a movie in whose range the
message lies is touched unless it is bypassed. -/
def Revisits (t t' : ArchiveTables) (channelId : ℤ) (messageId : ℕ) (bypassed : Movie → Prop) :
    Prop :=
  ∃ touched, OnlyTouches t t' touched ∧
    (∀ movie ∈ t'.movies, touched movie.id → movie.status = .indexed → t'.Evidenced parser movie) ∧
    ∀ movie ∈ t.movies, ¬ touched movie.id → t.Covers movie channelId messageId →
      t.posterMovie? channelId messageId = none ∧ t.movieBefore? channelId messageId = some movie ∧
        bypassed movie

variable {bypassed : Movie → Prop}

omit [UnicodeData] in
theorem eq_of_mem_updateMovie {movie movie' : Movie} {f : Movie → Movie}
    {hf : ∀ movie, (f movie).id = movie.id} (hmovie : t.movies.find? movie.id = some movie)
    (hmovie' : movie' ∈ (t.updateMovie movie.id f hf).movies) (hid : movie'.id = movie.id) :
    movie' = f movie := by
  have hfind := KeyedTable.find?_of_mem hmovie'
  rw [hid, find?_updateMovie_self hmovie] at hfind
  exact (Option.some.inj hfind).symm

/-- Revalidating a movie that stands in its place. -/
theorem evidenced_of_revalidated (hbound : t.Bounded) {movie stored movie' : Movie}
    (hstored : t.movies.find? movie.id = some stored)
    (hplace : moviePlace stored = moviePlace movie)
    (hconfidence : stored.parserConfidence = movie.parserConfidence)
    (hmovie' : movie' ∈ (t.revalidateMovie parser movie).1.movies) (hid : movie'.id = movie.id)
    (hindexed : movie'.status = .indexed) :
    (t.revalidateMovie parser movie).1.Evidenced parser movie' :=
  evidenced_revalidateMovie hbound hstored hplace hconfidence
    (hid ▸ KeyedTable.find?_of_mem hmovie') hindexed

theorem revisits_reconcileBoundary (hkeys : t.UniqueKeys) (hbound : t.Bounded)
    (hposter : t.posterMovie? channelId messageId = none) :
    Revisits parser t (t.reconcileBoundary parser channelId messageId) channelId messageId
      bypassed := by
  unfold reconcileBoundary
  cases hbefore : t.movieBefore? channelId messageId with
  | none =>
      refine ⟨fun _ => False, .refl, fun _ _ h => h.elim, fun movie hmovie _ hcovers => ?_⟩
      cases hbefore.symm.trans (hcovers.movieBefore?_eq hkeys hmovie hposter)
  | some previous =>
      obtain ⟨hprevious, -⟩ := movieBefore?_eq_some hbefore
      refine ⟨(· = previous.id), onlyTouches_revalidateMovie, fun movie' hmovie' hid hindexed => ?_,
        fun movie hmovie hnot hcovers => ?_⟩
      · exact evidenced_of_revalidated hbound (KeyedTable.find?_of_mem hprevious) rfl rfl hmovie'
          hid
          hindexed
      · cases hbefore.symm.trans (hcovers.movieBefore?_eq hkeys hmovie hposter)
        exact absurd rfl hnot

/-- A write to the row of a poster that leaves the movie out of the index. -/
theorem revisits_updatePoster (hkeys : t.UniqueKeys) {movie : Movie}
    (hposter : t.posterMovie? channelId messageId = some movie) {f : Movie → Movie}
    {hf : ∀ movie, (f movie).id = movie.id}
    (hplace : ∀ movie, moviePlace (f movie) = moviePlace movie)
    (hstatus : ∀ movie, (f movie).status ≠ .indexed) :
    Revisits parser t (t.updateMovie movie.id f hf) channelId messageId bypassed := by
  obtain ⟨hmem, rfl, rfl⟩ := posterMovie?_eq_some hposter
  refine ⟨(· = movie.id), onlyTouches_updateMovie hplace, fun movie' hmovie' hid hindexed => ?_,
    fun other hother hnot hcovers => ?_⟩
  · rw [eq_of_mem_updateMovie (KeyedTable.find?_of_mem hmem) hmovie' hid] at hindexed
    exact absurd hindexed (hstatus movie)
  · rw [hcovers.eq_of_poster hkeys hother hmem] at hnot
    exact absurd rfl hnot

/-- Setting an attached row aside. -/
theorem revisits_setAside (hkeys : t.UniqueKeys) {row : MovieQuality} {movie : Movie}
    (hposter : t.posterMovie? channelId messageId = none)
    (hrow : t.attachedQuality? channelId messageId = some row)
    (hmovie : t.movies.find? row.movieId = some movie) {f : MovieQuality → MovieQuality}
    (hf : SetsAside f) :
    Revisits parser t ((t.updateQuality row.id f hf.id).updateMovie movie.id fun m =>
      { m with status := .ambiguous }) channelId messageId fun movie =>
        ∃ row, t.attachedQuality? channelId messageId = some row ∧ row.movieId ≠ movie.id := by
  have hid : movie.id = row.movieId := KeyedTable.key_of_find? hmovie
  have hplace : ∀ row, rowPlace (f row) = rowPlace row := fun row => by
    rw [rowPlace, hf.movieId, hf.archiveChannelId, hf.archiveMessageId, rowPlace]
  have hrows : OnlyTouches t (t.updateQuality row.id f hf.id) (· = movie.id) := by
    rw [hid]
    exact onlyTouches_updateQuality (attachedQuality?_eq_some hrow).1 hplace
  refine ⟨(· = movie.id), hrows.trans (onlyTouches_updateMovie fun _ => rfl) fun _ h _ => h,
    fun movie' hmovie' hid' hindexed => ?_, fun other hother hnot hcovers => ?_⟩
  · have hstored : (t.updateQuality row.id f hf.id).movies.find? movie.id = some movie :=
      hid ▸ hmovie
    rw [eq_of_mem_updateMovie hstored hmovie' hid'] at hindexed
    cases hindexed
  · exact ⟨hposter, hcovers.movieBefore?_eq hkeys hother hposter, row, hrow,
      fun hsame => hnot (hsame.symm.trans hid.symm)⟩

theorem revisits_posterValid (hkeys : t.UniqueKeys) (hbound : t.Bounded) {movie : Movie}
    {group : ParsedMovieGroup} (hposter : t.posterMovie? channelId messageId = some movie) :
    Revisits parser t
      ((t.updateMovie movie.id (setPoster group)).revalidateMovie parser (setPoster group movie)).1
        channelId messageId bypassed := by
  obtain ⟨hmem, rfl, rfl⟩ := posterMovie?_eq_some hposter
  have hset : OnlyTouches t (t.updateMovie movie.id (setPoster group)) (· = movie.id) :=
    onlyTouches_updateMovie fun _ => rfl
  have hstored : (t.updateMovie movie.id (setPoster group)).movies.find? movie.id =
      some (setPoster group movie) := find?_updateMovie_self (KeyedTable.find?_of_mem hmem)
  have hrevalidated : OnlyTouches (t.updateMovie movie.id (setPoster group))
      ((t.updateMovie movie.id (setPoster group)).revalidateMovie parser (setPoster group movie)).1
        (· = movie.id) := onlyTouches_revalidateMovie
  have hbound' : (t.updateMovie movie.id (setPoster group)).Bounded := hbound
  refine ⟨(· = movie.id),
    hset.trans hrevalidated fun other hother hne => (mem_updateMovie_of_ne hne).2 hother,
    fun movie' hmovie' hid hindexed => ?_, fun other hother hnot hcovers => ?_⟩
  · have hid' : movie'.id = (setPoster group movie).id := hid
    exact evidenced_of_revalidated hbound' hstored rfl rfl hmovie' hid' hindexed
  · rw [hcovers.eq_of_poster hkeys hother hmem] at hnot
    exact absurd rfl hnot

theorem revisits_qualityValid (hkeys : t.UniqueKeys) (hbound : t.Bounded) {row : MovieQuality}
    {movie : Movie} {parsed : ParsedQuality}
    (hposter : t.posterMovie? channelId messageId = none)
    (hrow : t.attachedQuality? channelId messageId = some row)
    (hmovie : t.movies.find? row.movieId = some movie) :
    Revisits parser t
      ((t.updateQuality row.id (setQualityColumns parsed)).revalidateMovie parser movie).1
        channelId messageId fun movie =>
        ∃ row, t.attachedQuality? channelId messageId = some row ∧ row.movieId ≠ movie.id := by
  have hid : movie.id = row.movieId := KeyedTable.key_of_find? hmovie
  have hrows :
      OnlyTouches t (t.updateQuality row.id (setQualityColumns parsed)) (· = movie.id) := by
    rw [hid]
    exact onlyTouches_updateQuality (attachedQuality?_eq_some hrow).1 fun _ => rfl
  have hstored : (t.updateQuality row.id (setQualityColumns parsed)).movies.find? movie.id =
      some movie := hid ▸ hmovie
  have hbound' : (t.updateQuality row.id (setQualityColumns parsed)).Bounded := hbound
  refine ⟨(· = movie.id), hrows.trans onlyTouches_revalidateMovie fun _ h _ => h,
    fun movie' hmovie' hid' hindexed => ?_, fun other hother hnot hcovers => ?_⟩
  · exact evidenced_of_revalidated hbound' hstored rfl rfl hmovie' hid' hindexed
  · exact ⟨hposter, hcovers.movieBefore?_eq hkeys hother hposter, row, hrow,
      fun hsame => hnot (hsame.symm.trans hid.symm)⟩

theorem revisits_candidateAccepted (hkeys : t.UniqueKeys) (hbound : t.Bounded) {movie : Movie}
    {parsed : ParsedQuality} (hposter : t.posterMovie? channelId messageId = none)
    (hbefore : t.movieBefore? channelId messageId = some movie) :
    Revisits parser t
      ((t.upsertQualityRow movie.id channelId parsed).1.revalidateMovie parser movie).1
      channelId messageId bypassed := by
  obtain ⟨hmem, -⟩ := movieBefore?_eq_some hbefore
  have hstored : (t.upsertQualityRow movie.id channelId parsed).1.movies.find? movie.id =
      some movie := by
    rw [movies_upsertQualityRow]
    exact KeyedTable.find?_of_mem hmem
  have hbound' : (t.upsertQualityRow movie.id channelId parsed).1.Bounded := by
    rw [Bounded, snapshots_upsertQualityRow]
    exact hbound
  refine ⟨(· = movie.id), onlyTouches_upsertQualityRow.trans onlyTouches_revalidateMovie
    fun other hother _ => ?_, fun movie' hmovie' hid hindexed => ?_,
    fun other hother hnot hcovers => ?_⟩
  · rw [movies_upsertQualityRow]
    exact hother
  · exact evidenced_of_revalidated hbound' hstored rfl rfl hmovie' hid hindexed
  · cases hbefore.symm.trans (hcovers.movieBefore?_eq hkeys hother hposter)
    exact absurd rfl hnot

omit [UnicodeData] in
/-- The movie before a new poster is decided, and the new movie is added. -/
theorem onlyTouches_decideAndInsert (hkeys : t.UniqueKeys) {previous new : Movie}
    (hposter : t.posterMovie? new.archiveChannelId new.posterMessageId = none)
    (hbefore : t.movieBefore? new.archiveChannelId new.posterMessageId = some previous)
    (hnew : (t.closePending previous).movies.find? new.id = none) :
    OnlyTouches t ((t.closePending previous).insertMovie new)
        (fun id => id = previous.id ∨ id = new.id) ∧
      ∀ movie ∈ t.movies, movie.id ≠ previous.id →
        movie ∈ ((t.closePending previous).insertMovie new).movies := by
  have hclosed : OnlyTouches t (t.closePending previous) (· = previous.id) :=
    onlyTouches_closePending
  have hkept : ∀ movie ∈ t.movies, movie.id ≠ previous.id →
      movie ∈ (t.closePending previous).movies := by
    intro movie hmovie hne
    unfold closePending
    split
    · exact (mem_updateMovie_of_ne hne).2 hmovie
    · exact hmovie
  have hinsert : OnlyTouches (t.closePending previous) ((t.closePending previous).insertMovie new)
      fun id => id = previous.id ∨ id = new.id := by
    refine onlyTouches_insertMovie hnew (.inr rfl) fun movie hmovie hnot hcovers => ?_
    -- a movie that covers the new poster is the one before it
    have hne : movie.id ≠ previous.id := fun heq => hnot (.inl heq)
    have hmem : movie ∈ t.movies := hclosed.movies movie hmovie hne
    have hcovers := (covers_iff_of_samePlaces samePlaces_closePending rfl).1 hcovers
    cases hbefore.symm.trans (hcovers.movieBefore?_eq hkeys hmem hposter)
    exact hne rfl
  refine ⟨(hclosed.mono fun _ => .inl).trans hinsert
      fun movie hmovie hnot => hkept movie hmovie fun heq => hnot (.inl heq),
    fun movie hmovie hne => ?_⟩
  exact (KeyedTable.mem_insert hnew).2 (.inr (hkept movie hmovie hne))

/-- **A new poster** touches the movie before it, which is revalidated, and its own, which is
pending. -/
theorem revisits_newPoster (hkeys : t.UniqueKeys) (hbound : t.Bounded) {group : ParsedMovieGroup}
    (hid : group.posterMessageId = messageId)
    (hposter : t.posterMovie? channelId messageId = none) :
    Revisits parser t (t.upsertPoster parser channelId group).1 channelId messageId bypassed := by
  subst hid
  rw [upsertPoster_eq hposter]
  cases hbefore : t.movieBefore? channelId group.posterMessageId with
  | none =>
      dsimp only
      rw [addPoster_eq_of_none hbefore]
      have hnone : ∀ movie ∈ t.movies, ¬ t.Covers movie channelId group.posterMessageId := by
        intro movie hmovie hcovers
        cases hbefore.symm.trans (hcovers.movieBefore?_eq hkeys hmovie hposter)
      refine ⟨(· = t.movies.freshKey), onlyTouches_insertMovie (KeyedTable.find?_freshKey _) rfl
        fun movie hmovie _ => hnone movie hmovie, fun movie' hmovie' hfresh hindexed => ?_,
        fun movie hmovie _ hcovers => absurd hcovers (hnone movie hmovie)⟩
      rcases KeyedTable.mem_of_mem_insert hmovie' with rfl | hmovie'
      · cases hindexed
      · exact absurd hfresh (KeyedTable.lt_freshKey hmovie').ne
  | some previous =>
      obtain ⟨hprevious, -⟩ := movieBefore?_eq_some hbefore
      obtain ⟨stored, hstored, hplace, hconfidence⟩ := find?_closePending hprevious
      obtain ⟨new, hnew⟩ : ∃ new, new = newMovie (t.closePending previous).movies.freshKey channelId
        group := ⟨_, rfl⟩
      have hfree : (t.closePending previous).movies.find? new.id = none := by
        rw [hnew]
        exact KeyedTable.find?_freshKey _
      have hlt : ∀ movie ∈ (t.closePending previous).movies, movie.id < new.id := by
        rw [hnew]
        exact fun movie hmovie => KeyedTable.lt_freshKey hmovie
      have hpending : new.status = .pending := by rw [hnew]; rfl
      obtain ⟨hinsert, hkept⟩ : OnlyTouches t ((t.closePending previous).insertMovie new)
          (fun id => id = previous.id ∨ id = new.id) ∧ ∀ movie ∈ t.movies, movie.id ≠ previous.id →
            movie ∈ ((t.closePending previous).insertMovie new).movies := by
        subst hnew
        exact onlyTouches_decideAndInsert hkeys hposter hbefore hfree
      have hstored' : ((t.closePending previous).insertMovie new).movies.find? previous.id =
          some stored := by
        have hne : new.id ≠ previous.id := by
          rw [← KeyedTable.key_of_find? hstored]
          exact (hlt stored (KeyedTable.mem_of_find? hstored)).ne'
        rw [insertMovie, KeyedTable.find?_insert hfree, if_neg hne, hstored]
      have hbound' : ((t.closePending previous).insertMovie new).Bounded := by
        rw [Bounded, hinsert.snapshots]
        exact hbound
      dsimp only
      rw [addPoster_eq hbefore, ← hnew]
      have hrevalidate : OnlyTouches ((t.closePending previous).insertMovie new)
          (((t.closePending previous).insertMovie new).revalidateMovie parser previous).1
          (· = previous.id) := onlyTouches_revalidateMovie
      refine ⟨fun id => id = previous.id ∨ id = new.id,
        hinsert.trans (hrevalidate.mono fun _ => .inl) fun movie hmovie hnot =>
          hkept movie hmovie fun heq => hnot (.inl heq),
        fun movie' hmovie' htouched hindexed => ?_, fun movie hmovie hnot hcovers => ?_⟩
      · by_cases hsame : movie'.id = previous.id
        · exact evidenced_of_revalidated hbound' hstored' hplace hconfidence hmovie' hsame hindexed
        · -- the new movie is pending
          have hmem := hrevalidate.movies movie' hmovie' hsame
          rcases KeyedTable.mem_of_mem_insert hmem with rfl | hmem
          · cases hpending.symm.trans hindexed
          · exact absurd (htouched.resolve_left hsame) (hlt movie' hmem).ne
      · cases hbefore.symm.trans (hcovers.movieBefore?_eq hkeys hmovie hposter)
        exact absurd (.inl rfl) hnot

theorem Revisits.mono {bypassed' : Movie → Prop}
    (h : Revisits parser t t' channelId messageId bypassed)
    (hle : ∀ movie, bypassed movie → bypassed' movie) :
    Revisits parser t t' channelId messageId bypassed' := by
  obtain ⟨touched, htouches, hevidence, hbypassed⟩ := h
  refine ⟨touched, htouches, hevidence, fun movie hmovie hnot hcovers => ?_⟩
  obtain ⟨hposter, hbefore, h⟩ := hbypassed movie hmovie hnot hcovers
  exact ⟨hposter, hbefore, hle movie h⟩

/-- **Indexing revisits the movie in whose range the message lies**, unless the message is attached
to another movie or is a candidate that is not accepted. -/
theorem IndexStep.revisits (h : IndexStep parser t channelId message t') (hkeys : t.UniqueKeys)
    (hbound : t.Bounded) : Revisits parser t t' channelId message.messageId fun movie =>
      (∃ row, t.attachedQuality? channelId message.messageId = some row ∧ row.movieId ≠ movie.id) ∨
        t.attachedQuality? channelId message.messageId = none ∧
          (message.mediaKind = .video ∨ message.mediaKind = .document) ∧
          (extractQuality (message.caption.getD [])).isSome ∧
          groupQuality? (t.parseMovieGroup parser movie (some message.messageId))
            message.messageId = none := by
  cases h with
  | posterInvalid movie hposter =>
      exact revisits_updatePoster hkeys hposter (fun _ => rfl) fun _ h => by cases h
  | posterValid movie group hposter hgroup => exact revisits_posterValid hkeys hbound hposter
  | qualityInvalid row movie f hf hposter hrow hmovie =>
      exact (revisits_setAside hkeys hposter hrow hmovie hf).mono fun _ => .inl
  | qualityValid row movie parsed hposter hrow hmovie hparsed =>
      exact (revisits_qualityValid hkeys hbound hposter hrow hmovie).mono fun _ => .inl
  | boundary hposter hrow => exact revisits_reconcileBoundary hkeys hbound hposter
  | newPoster group hposter hrow hgroup =>
      exact revisits_newPoster hkeys hbound (posterMessageId_of_parsePoster hgroup) hposter
  | candidateIgnored hposter hrow hkind hquality hignored =>
      refine ⟨fun _ => False, .refl, fun _ _ h => h.elim, fun movie hmovie _ hcovers => ?_⟩
      have hbefore := hcovers.movieBefore?_eq hkeys hmovie hposter
      exact ⟨hposter, hbefore, .inr ⟨hrow, hkind, hquality, hignored movie hbefore⟩⟩
  | candidateAccepted movie parsed hposter hrow hmovie hparsed =>
      exact revisits_candidateAccepted hkeys hbound hposter hmovie

/-- A conflict revisits the movie in whose range the message lies, unless the message is attached to
another movie. -/
theorem revisits_invalidateSnapshotConflict (hlinked : t.Linked) (hkeys : t.UniqueKeys)
    (hbound : t.Bounded) :
    Revisits parser t (t.invalidateSnapshotConflict parser channelId messageId) channelId messageId
      fun movie =>
        ∃ row, t.attachedQuality? channelId messageId = some row ∧ row.movieId ≠ movie.id := by
  unfold invalidateSnapshotConflict
  cases hposter : t.posterMovie? channelId messageId with
  | some movie => exact revisits_updatePoster hkeys hposter (fun _ => rfl) fun _ h => by cases h
  | none =>
      cases hrow : t.attachedQuality? channelId messageId with
      | none => exact revisits_reconcileBoundary hkeys hbound hposter
      | some row =>
          obtain ⟨movie, hmovie, -⟩ := hlinked.rowMovie row (attachedQuality?_eq_some hrow).1
          simp only [attachedMovie?, hrow, Option.bind_some, hmovie]
          have hf : SetsAside fun r => { r with parserConfidence := 0 } :=
            ⟨fun _ => rfl, fun _ => rfl, fun _ => rfl, fun _ => rfl, fun _ => rfl, fun _ => rfl⟩
          have hrevisits : Revisits parser t _ channelId messageId _ :=
            revisits_setAside hkeys hposter hrow hmovie hf
          rw [hrow] at hrevisits
          exact hrevisits

end Revisits

/-! ### Runs -/

section Run

variable [UnicodeData] {parser : ArchiveParser} {message : ArchiveMessage}

variable (parser) in
/-- The invariant of the archive, with evidence for every indexed movie. -/
structure Supported (t : ArchiveTables) : Prop extends t.Sound where
  bounded : t.Bounded
  evidenced : ∀ movie ∈ t.movies, movie.status = .indexed → t.Evidenced parser movie

theorem empty_supported : empty.Supported parser where
  toSound := empty_sound
  bounded := by
    intro s hs
    cases hs
  evidenced := by
    intro movie hmovie
    cases hmovie

omit [UnicodeData] in
theorem Bounded.recordMessage (h : t.Bounded) (hid : message.messageId < bigintMax) :
    (t.recordMessage channelId message).Bounded := by
  intro s hs
  have hfind : (t.recordMessage channelId message).snapshot? s.archiveChannelId s.messageId =
      some s := KeyedTable.find?_of_mem hs
  rw [snapshot?_recordMessage] at hfind
  split at hfind
  · cases hfind
    exact hid
  · exact h s (KeyedTable.mem_of_find? hfind)

omit [UnicodeData] in
theorem Bounded.updateSnapshot {f : ArchiveMessageSnapshot → ArchiveMessageSnapshot}
    {hf : ∀ s, (f s).key = s.key} (h : t.Bounded) :
    (t.updateSnapshot channelId messageId f hf).Bounded := by
  intro s hs
  have hfind :
      (t.updateSnapshot channelId messageId f hf).snapshot? s.archiveChannelId s.messageId =
        some s := KeyedTable.find?_of_mem hs
  rw [snapshot?_updateSnapshot] at hfind
  split at hfind
  · obtain ⟨s₀, hs₀, rfl⟩ := Option.map_eq_some_iff.1 hfind
    have hid : (f s₀).messageId = s₀.messageId := (Prod.ext_iff.1 (toLex.injective (hf s₀))).2
    rw [hid]
    exact h s₀ (KeyedTable.mem_of_find? hs₀)
  · exact h s (KeyedTable.mem_of_find? hfind)

/-- A poster is a photo. -/
theorem detectPoster_eq_none (h : message.mediaKind = .video ∨ message.mediaKind = .document) :
    detectPoster message = none := by
  unfold detectPoster
  rcases h with h | h
  · simp [h]
  · simp [h]

/-- **A call that keeps the evidence keeps every indexed movie supported.** -/
theorem Supported.call (ht : t.Supported parser) (c : ArchiveCall) (hc : t.KeepsEvidence parser c) :
    (t.call parser c).Supported parser := by
  have hsound : (t.call parser c).Sound := ht.toSound.call c
  have hstep : CallStep parser t c (t.call parser c) := ht.toLinked.callStep c
  generalize t.call parser c = t' at hsound hstep
  cases hstep with
  | unchanged => exact ht
  | conflicted s hs hfate hkeys =>
      have hmarked : (t.markConflict c.channelId c.message.messageId).Linked :=
        ht.toLinked.of_samePlaces samePlaces_updateSnapshot
      have hbound : (t.markConflict c.channelId c.message.messageId).Bounded :=
        ht.bounded.updateSnapshot
      obtain ⟨touched, htouches, hevidence, hbypassed⟩ : Revisits parser _ _ _ _ _ :=
        revisits_invalidateSnapshotConflict hmarked (ht.toUniqueKeys.of_eq rfl rfl) hbound
      refine ⟨hsound, ?_, fun movie hmovie hindexed => ?_⟩
      · rw [Bounded, htouches.snapshots]
        exact hbound
      · by_cases htouched : touched movie.id
        · exact hevidence movie hmovie htouched hindexed
        have hmem : movie ∈ t.movies := htouches.movies movie hmovie htouched
        have hmovies : (t.markConflict c.channelId c.message.messageId).movies = t.movies := rfl
        refine (ht.evidenced movie hmem hindexed).untouched changesOnly_updateSnapshot hmovies rfl
          htouches hmem htouched fun hcovers => ?_
        -- a conflict of a message that is attached elsewhere is excluded
        obtain ⟨-, hbefore, row, hrow, hne⟩ :=
          hbypassed movie hmem htouched ((Covers.of_movies hmovies).2 hcovers)
        exact hne (hc.conflicted hfate movie hbefore hindexed row hrow)
  | indexed _ hid hfate h hkeys =>
      have hlt : c.message.messageId < bigintMax :=
        lt_of_le_of_ne hid (hc.bounded fun hkept => by rw [hkept] at hfate; cases hfate)
      have hbound : (t.recordMessage c.channelId c.message).Bounded := ht.bounded.recordMessage hlt
      obtain ⟨touched, htouches, hevidence, hbypassed⟩ := h.revisits
        (ht.toUniqueKeys.of_eq movies_recordMessage qualities_recordMessage) hbound
      refine ⟨hsound, ?_, fun movie hmovie hindexed => ?_⟩
      · rw [Bounded, htouches.snapshots]
        exact hbound
      · by_cases htouched : touched movie.id
        · exact hevidence movie hmovie htouched hindexed
        have hmem' := htouches.movies movie hmovie htouched
        have hmem : movie ∈ t.movies := by rwa [movies_recordMessage] at hmem'
        have hold := ht.evidenced movie hmem hindexed
        by_cases hcovers : t.Covers movie c.channelId c.message.messageId
        · obtain ⟨hposter, hbefore, hbypass⟩ := hbypassed movie hmem' htouched
            ((Covers.of_movies movies_recordMessage).2 hcovers)
          simp only [posterMovie?, movieBefore?, attachedQuality?, movies_recordMessage,
            qualities_recordMessage] at hposter hbefore hbypass
          have hrecorded := ht.posterRecorded movie hmem
          have hposter_lt : movie.posterMessageId < c.message.messageId :=
            (movieBefore?_eq_some hbefore).2.2.1
          refine hold.unaffected hrecorded hcovers hposter_lt (fun poster hopening => ?_) htouches
            hmem
            htouched
          by_cases hshut : ({} : Outline).isShut parser
              (roles poster (t.messagesBefore movie c.message.messageId))
          · exact .inl hshut
          refine hc.recorded hfate hposter movie hbefore hindexed ?_ poster hopening
          rcases hbypass with hattached | ⟨hrow, hkind, hquality, hignored⟩
          · exact .inl hattached
          · refine .inr ⟨hrow, hkind, hquality, fun poster' hopening' quality heffect => ?_⟩
            obtain rfl : poster' = poster := Option.some.inj (hopening'.symm.trans hopening)
            exact hold.groupQuality?_ne_none hrecorded hcovers hposter_lt hbound
              (detectPoster_eq_none hkind) hopening (by simpa using hshut) heffect hignored
        · exact hold.untouched changesOnly_recordMessage movies_recordMessage
            qualities_recordMessage
            htouches hmem' htouched hcovers

variable (parser) in
/-- **Searchable implies justified**, in every state of a run whose calls keep the evidence. -/
theorem indexed_movies_are_justified (calls : List ArchiveCall)
    (h : Transition.Along (call parser) (fun t c => t.KeepsEvidence parser c) empty calls) :
    Transition.Always (call parser)
      (fun t => ∀ movie ∈ t.movies, movie.status = .indexed → t.Justified parser movie) empty
      calls := by
  have hsupported : Transition.Always (call parser) (Supported parser) empty calls :=
    Transition.always_of_along (fun _ c ht hc => ht.call c hc) empty_supported h
  intro pre hpre movie hmovie hindexed
  exact ((hsupported pre hpre).evidenced movie hmovie hindexed).justified

end Run

/-! ### A run that breaks it and one that keeps it -/

section Runs

/-- The messages that the parser accepts. -/
def acceptedMessages [UnicodeData] (parser : ArchiveParser) (messages : List ArchiveMessage) :
    List ℕ :=
  match parser.parse messages with
  | .ok groups => groups.flatMap fun group => group.qualities.map ParsedQuality.messageId
  | .error _ => []

/-- The attached messages of a justified movie are accepted. -/
theorem Justified.mem_acceptedMessages [UnicodeData] {parser : ArchiveParser} {movie : Movie}
    {row : MovieQuality} (h : t.Justified parser movie) (hrow : row ∈ t.qualities)
    (hid : row.movieId = movie.id) :
    row.archiveMessageId ∈ acceptedMessages parser (t.rangeMessages movie) := by
  obtain ⟨groups, hparse, group, hgroup, -, hrows⟩ := h.accepted
  obtain ⟨item, hitem, hmessage, -⟩ := hrows row hrow hid
  rw [acceptedMessages, hparse]
  exact List.mem_flatMap.2 ⟨group, hgroup, List.mem_map.2 ⟨item, hitem, hmessage⟩⟩

attribute [local instance] UnicodeData.asciiArabic

def samplePoster (messageId : ℕ) (h : true = decide (0 < messageId) := by exact rfl) :
    ArchiveMessage where
  messageId
  mediaKind := .photo
  caption := some "الفيلم: Up\nالسنة: 2014".toList
  messageId_pos := of_decide_eq_true h.symm

def sampleVideo (messageId : ℕ) (caption : Str)
    (h : true = decide (0 < messageId) := by exact rfl) : ArchiveMessage where
  messageId
  mediaKind := .video
  caption := some caption
  messageId_pos := of_decide_eq_true h.symm

def sampleNoise (messageId : ℕ) (h : true = decide (0 < messageId) := by exact rfl) :
    ArchiveMessage where
  messageId
  mediaKind := .other
  messageId_pos := of_decide_eq_true h.symm

/-- Ingest messages of channel 7. -/
def publish (messages : List ArchiveMessage) : List ArchiveCall :=
  messages.map fun message => .ingest (some (.int 7)) 7 message

/-- Message 5 takes the place of message 3, whose caption then names another year: the third symbol
of noise in a row that is not interrupted any more shuts the group before message 5. -/
def editedToNoise : List ArchiveCall :=
  publish [samplePoster 1, sampleNoise 2, sampleVideo 3 "Up 720p".toList, sampleNoise 4,
    sampleVideo 5 "Up 720p".toList] ++
      [.reconcileEdit (some (.int 7)) 7 (sampleVideo 3 "Up 2001 720p".toList) none]

/-- Message 10 is attached to the first movie when poster 5 arrives, and is then edited to noise. -/
def editedElsewhere : List ArchiveCall :=
  publish [samplePoster 1, sampleVideo 10 "Up 720p".toList, samplePoster 5, sampleNoise 11,
    sampleVideo 12 "Up 1080p".toList] ++
      [.reconcileEdit (some (.int 7)) 7 (sampleNoise 10) none]

/-- An indexed movie with an attached message that the parser does not accept ends the run. -/
theorem not_always_justified {parser : ArchiveParser} {calls : List ArchiveCall} (movieId rowId : ℕ)
    (h : ∃ movie row, (Transition.run (call parser) empty calls).movies.find? movieId = some movie ∧
      (Transition.run (call parser) empty calls).qualities.find? rowId = some row ∧
      movie.status = .indexed ∧ row.movieId = movie.id ∧ row.archiveMessageId ∉
        acceptedMessages parser ((Transition.run (call parser) empty calls).rangeMessages movie)) :
    ¬ Transition.Always (call parser)
      (fun t => ∀ movie ∈ t.movies, movie.status = .indexed → t.Justified parser movie) empty
      calls := by
  intro halways
  obtain ⟨movie, row, hmovie, hrow, hindexed, hid, hunaccepted⟩ := h
  have hjustified := halways.last movie (KeyedTable.mem_of_find? hmovie) hindexed
  exact hunaccepted (hjustified.mem_acceptedMessages (KeyedTable.mem_of_find? hrow) hid)

theorem edits_leave_unjustified :
    ¬ Transition.Always (call {})
        (fun t => ∀ movie ∈ t.movies, movie.status = .indexed → t.Justified {} movie) empty
        editedToNoise ∧
      ¬ Transition.Always (call {})
        (fun t => ∀ movie ∈ t.movies, movie.status = .indexed → t.Justified {} movie) empty
        editedElsewhere :=
  ⟨not_always_justified 1 1 ⟨_, _, rfl, rfl, by decide +kernel⟩,
    not_always_justified 2 2 ⟨_, _, rfl, rfl, by decide +kernel⟩⟩

/-- A first observation is no edit, so nothing conflicts with it. -/
theorem fate_ingest_ne_conflicted {configured : Option SettingValue} {message : ArchiveMessage} :
    (ArchiveCall.ingest configured channelId message).fate t ≠ .conflicted := by
  have hfate : t.snapshotFate channelId message false none ≠ .conflicted := by
    cases hs : t.snapshot? channelId message.messageId with
    | none => simp [snapshotFate, hs]
    | some s => simp [snapshotFate, hs]
  unfold ArchiveCall.fate
  intro h
  split at h
  · cases h
  · split at h
    · cases h
    · split at h
      · cases h
      · exact hfate h

def publishedFile : List ArchiveCall :=
  publish [samplePoster 1, sampleVideo 2 "Up 720p".toList, sampleNoise 3]

/-- A poster, its file and a comment keep the evidence: no movie before the poster is indexed, the
file finds its movie pending, and the comment is no candidate. -/
theorem indexed_movies_are_justified_published :
    Transition.Always (call {})
      (fun t => ∀ movie ∈ t.movies, movie.status = .indexed → t.Justified {} movie) empty
      publishedFile := by
  have hposter : ∀ movie ∈ empty.movieBefore? 7 1, movie.status ≠ .indexed := by decide +kernel
  have hvideo : ∀ movie ∈ (Transition.run (call {}) empty (publishedFile.take 1)).movieBefore? 7 2,
      movie.status ≠ .indexed := by decide +kernel
  have hnoise : (Transition.run (call {}) empty (publishedFile.take 2)).attachedQuality? 7 3 =
      none := by
    decide +kernel
  refine indexed_movies_are_justified {} _ ⟨?_, ?_, ?_, trivial⟩
  · exact ⟨fun _ => by decide, fun h => absurd h fate_ingest_ne_conflicted,
      fun _ _ movie hmovie hindexed => absurd hindexed (hposter movie hmovie)⟩
  · exact ⟨fun _ => by decide, fun h => absurd h fate_ingest_ne_conflicted,
      fun _ _ movie hmovie hindexed => absurd hindexed (hvideo movie hmovie)⟩
  · refine ⟨fun _ => by decide, fun h => absurd h fate_ingest_ne_conflicted,
      fun _ _ movie _ _ hbypass => ?_⟩
    rcases hbypass with ⟨row, hrow, -⟩ | ⟨-, hkind, -⟩
    · exact absurd (hnoise.symm.trans hrow) (by simp)
    · exact absurd hkind (by decide)

end Runs

end ArchiveTables

end CineGate
