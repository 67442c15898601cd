/-
**What the movie view lists is what a reward session accepts.**

`get_movie_view` (`services/movie_search.py`) lists the resolutions of all rows of an indexed movie;
`get_or_create` accepts a row of an indexed movie with a positive confidence.  The two agree because
an indexed movie has no row that is set aside: whatever writes to a row of a movie decides the
status of that movie afterwards.

* `ArchiveTables.getMovieView` — `get_movie_view`;
* `ArchiveTables.Settled` — no status outlives the confidence of the rows it was decided from;
* `ArchiveTables.Settled.call` — every call keeps it;
* `ArchiveTables.listed_iff_accepted` — the view and the session agree after any calls.
-/

import CineGate.RewardSessions
import CineGate.RowIdentity
import CineGate.MovieEvidence
import Mathlib.Data.List.Dedup
import Mathlib.Data.Char
import Mathlib.Data.List.Lex

set_option relaxedAutoImplicit false
set_option autoImplicit false

namespace CineGate

/-! ### The movie view -/

/-- `_QUALITY_ORDER.get(value, 9999)`. -/
def qualityOrder (value : Str) : ℕ :=
  if value = "480p".toList then 480
  else if value = "720p".toList then 720
  else if value = "1080p".toList then 1080
  else if value = "2160p".toList then 2160
  else if value = "4k".toList then 2161
  else 9999

/-- The order of `sorted(..., key=lambda value: (_QUALITY_ORDER.get(value, 9999), value))`. -/
def ViewLe (a b : Str) : Prop :=
    qualityOrder a < qualityOrder b ∨ qualityOrder a = qualityOrder b ∧ a ≤ b

instance : DecidableRel ViewLe := fun a b =>
  inferInstanceAs
    (Decidable (qualityOrder a < qualityOrder b ∨ qualityOrder a = qualityOrder b ∧ a ≤ b))

structure MovieView where
  movieId : ℕ
  archiveChannelId : ℤ
  posterMessageId : ℕ
  displayTitle : Str
  year : Option ℕ
  qualities : List Str
deriving DecidableEq, Repr

namespace ArchiveTables

/-- `get_movie_view`. -/
def getMovieView (t : ArchiveTables) (movieId : ℕ) : Option MovieView :=
  match t.movies.find? movieId with
  | none => none
  | some movie =>
      if movie.status ≠ .indexed then none
      else
        let qualityRows := (t.movieQualities movie.id).map fun row => row.quality.label
        let qualities := qualityRows.dedup.insertionSort ViewLe
        if qualities.isEmpty then none
        else some {
          movieId := movie.id
          archiveChannelId := movie.archiveChannelId
          posterMessageId := movie.posterMessageId
          displayTitle := movie.displayTitle
          year := movie.year
          qualities }

/-- The view of the movie lists the resolution. -/
def Lists (t : ArchiveTables) (movieId : ℕ) (quality : Str) : Prop :=
  ∃ view, t.getMovieView movieId = some view ∧ quality ∈ view.qualities

variable {t t' : ArchiveTables} {movieId : ℕ} {quality : Str}

/-- **What is listed**: the resolutions of the rows of an indexed movie. -/
theorem lists_iff : t.Lists movieId quality ↔
    (∃ movie, t.movies.find? movieId = some movie ∧ movie.status = .indexed) ∧
      ∃ row ∈ t.qualities, row.movieId = movieId ∧ row.quality.label = quality := by
  have hrows : ∀ movie, quality ∈ ((t.movieQualities movie).map fun row =>
      row.quality.label).dedup.insertionSort ViewLe ↔
        ∃ row ∈ t.qualities, row.movieId = movie ∧ row.quality.label = quality := by
    intro movie
    rw [(List.perm_insertionSort ViewLe _).mem_iff, List.mem_dedup, List.mem_map]
    simp only [mem_movieQualities, and_assoc]
  rw [Lists]
  constructor
  · rintro ⟨view, hview, hquality⟩
    unfold getMovieView at hview
    split at hview
    · cases hview
    · next movie hmovie =>
        split at hview
        · cases hview
        · next hindexed =>
            dsimp only at hview
            split at hview
            · cases hview
            · cases hview
              have hid : movie.id = movieId := KeyedTable.key_of_find? hmovie
              exact ⟨⟨movie, hmovie, not_not.1 hindexed⟩, hid ▸ (hrows movie.id).1 hquality⟩
  · rintro ⟨⟨movie, hmovie, hindexed⟩, hrow⟩
    have hid : movie.id = movieId := KeyedTable.key_of_find? hmovie
    have hmem := (hrows movie.id).2 (hid.symm ▸ hrow)
    have hnonempty : (((t.movieQualities movie.id).map fun row =>
        row.quality.label).dedup.insertionSort ViewLe).isEmpty = false :=
      List.isEmpty_eq_false_iff.2 (List.ne_nil_of_mem hmem)
    have hview : t.getMovieView movieId = some {
        movieId := movie.id
        archiveChannelId := movie.archiveChannelId
        posterMessageId := movie.posterMessageId
        displayTitle := movie.displayTitle
        year := movie.year
        qualities := ((t.movieQualities movie.id).map fun row =>
          row.quality.label).dedup.insertionSort ViewLe } := by
      simp only [getMovieView, hmovie, hindexed, ne_eq, not_true_eq_false, if_false, hnonempty,
        Bool.false_eq_true]
    exact ⟨_, hview, hmem⟩

/-! ### Settled movies -/

/-- An indexed movie has no row that is set aside, and a pending one has no rows; movie `exempt` may
be undecided. -/
structure SettledExcept (t : ArchiveTables) (exempt : ℕ → Prop) : Prop where
  indexed : ∀ movie ∈ t.movies, ¬exempt movie.id → movie.status = .indexed →
    ∀ row ∈ t.qualities, row.movieId = movie.id → 0 < row.parserConfidence
  pending : ∀ movie ∈ t.movies, ¬exempt movie.id → movie.status = .pending →
    ∀ row ∈ t.qualities, row.movieId ≠ movie.id

/-- The status of every movie agrees with its rows. -/
abbrev Settled (t : ArchiveTables) : Prop := t.SettledExcept fun _ => False

theorem empty_settled : empty.Settled :=
  ⟨fun _ h => (by cases h), fun _ h => (by cases h)⟩

/-- Writes to one movie and to its rows leave the others settled. -/
theorem SettledExcept.frame {exempt : ℕ → Prop} (h : t.SettledExcept exempt)
    (hmovies : ∀ movie ∈ t'.movies, movie.id ≠ movieId → movie ∈ t.movies)
    (hrows : ∀ row ∈ t'.qualities, row.movieId ≠ movieId → row ∈ t.qualities) :
    t'.SettledExcept fun id => exempt id ∨ id = movieId := by
  refine ⟨fun movie hmovie hnot hstatus row hrow hid => ?_,
    fun movie hmovie hnot hstatus row hrow hid => ?_⟩
  all_goals
    obtain ⟨hnot, hne⟩ := not_or.1 hnot
    have hrow := hrows row hrow (hid ▸ hne)
  · exact h.indexed movie (hmovies movie hmovie hne) hnot hstatus row hrow hid
  · exact h.pending movie (hmovies movie hmovie hne) hnot hstatus row hrow hid

/-- A movie of settled tables may be exempt. -/
theorem Settled.except (h : t.Settled) {exempt : ℕ → Prop} : t.SettledExcept exempt :=
  ⟨fun movie hmovie _ => h.indexed movie hmovie not_false,
    fun movie hmovie _ => h.pending movie hmovie not_false⟩

/-- The frame of settled tables. -/
theorem Settled.frame (h : t.Settled)
    (hmovies : ∀ movie ∈ t'.movies, movie.id ≠ movieId → movie ∈ t.movies)
    (hrows : ∀ row ∈ t'.qualities, row.movieId ≠ movieId → row ∈ t.qualities) :
    t'.SettledExcept (· = movieId) := by
  have hframe := SettledExcept.frame h hmovies hrows
  simpa using hframe

/-- A movie of updated tables: another one, or the written one. -/
theorem mem_updateMovie_cases {f : Movie → Movie} {hf : ∀ movie, (f movie).id = movie.id}
    {movie' : Movie} (h : movie' ∈ (t.updateMovie movieId f hf).movies) :
    movie' ∈ t.movies ∧ movie'.id ≠ movieId ∨
      ∃ movie ∈ t.movies, movie.id = movieId ∧ movie' = f movie := by
  have h : movie' ∈ t.movies.modifyAt movieId f hf := h
  rcases KeyedTable.mem_modifyAt.1 h with hother | ⟨movie, hmovie, hid, rfl⟩
  · exact .inl hother
  · exact .inr ⟨movie, hmovie, hid, rfl⟩

theorem mem_of_mem_updateMovie {f : Movie → Movie} {hf : ∀ movie, (f movie).id = movie.id}
    {movie' : Movie} (h : movie' ∈ (t.updateMovie movieId f hf).movies)
    (hne : movie'.id ≠ movieId) :
    movie' ∈ t.movies := by
  rcases mem_updateMovie_cases h with ⟨h, -⟩ | ⟨movie, -, hid, rfl⟩
  · exact h
  · exact absurd ((hf movie).trans hid) hne

/-- A movie that is put aside is settled, whatever its rows are. -/
theorem SettledExcept.setAmbiguous (h : t.SettledExcept (· = movieId)) {f : Movie → Movie}
    {hf : ∀ movie, (f movie).id = movie.id} (hambiguous : ∀ movie, (f movie).status = .ambiguous) :
    (t.updateMovie movieId f hf).Settled := by
  refine ⟨fun movie' hmovie' _ hstatus => ?_, fun movie' hmovie' _ hstatus => ?_⟩
  all_goals rcases mem_updateMovie_cases hmovie' with ⟨hmovie', hne⟩ | ⟨movie, -, -, rfl⟩
  · exact h.indexed movie' hmovie' hne hstatus
  · cases (hambiguous movie).symm.trans hstatus
  · exact h.pending movie' hmovie' hne hstatus
  · cases (hambiguous movie).symm.trans hstatus

/-- Without a write to a row the writes to one movie leave the others settled. -/
theorem Settled.updateMovie (h : t.Settled) {f : Movie → Movie}
    {hf : ∀ movie, (f movie).id = movie.id} :
    (t.updateMovie movieId f hf).SettledExcept (· = movieId) :=
  h.frame (fun _ hmovie hne => mem_of_mem_updateMovie hmovie hne) fun _ hrow _ => hrow

/-- A write to a row of a movie leaves the others settled. -/
theorem Settled.updateQuality (h : t.Settled) {row : MovieQuality} (hrow : row ∈ t.qualities)
    {f : MovieQuality → MovieQuality} {hf : ∀ row, (f row).id = row.id}
    (hmovie : (f row).movieId = row.movieId) :
    (t.updateQuality row.id f hf).SettledExcept (· = row.movieId) := by
  refine h.frame (fun _ hmovie _ => hmovie) fun row' hrow' hne => ?_
  rcases mem_updateQuality hrow hrow' with ⟨hrow', -⟩ | rfl
  · exact hrow'
  · exact absurd hmovie hne

section

variable [UnicodeData] {parser : ArchiveParser} {channelId : ℤ} {message : ArchiveMessage}
  {movie : Movie}

omit [UnicodeData] in
/-- A status that has been decided is not pending. -/
theorem freshStatus_ne_pending : t.freshStatus movie ≠ .pending := by
  unfold freshStatus
  dsimp only
  split
  · exact nofun
  · split <;> exact nofun

/-- **Revalidation settles its movie.** -/
theorem SettledExcept.revalidateMovie (h : t.SettledExcept (· = movie.id)) :
    (t.revalidateMovie parser movie).1.Settled := by
  -- rows of other movies are not reread
  have hrows : ∀ row' ∈ (t.revalidateMovie parser movie).1.qualities, row'.movieId ≠ movie.id →
      row' ∈ t.qualities := by
    intro row' hrow' hne
    obtain ⟨row, hrow, rfl⟩ := mem_qualities_revalidateMovie hrow'
    split
    · next hid =>
        rw [if_pos hid] at hne
        have hplace := (revalidateRow_frame (t.acceptedQualities parser movie) row).2.1
        exact absurd ((congrArg Prod.fst hplace).trans hid) hne
    · exact hrow
  refine ⟨fun movie' hmovie' _ hstatus row hrow hid => ?_,
    fun movie' hmovie' _ hstatus row hrow hid => ?_⟩
  all_goals rcases mem_updateMovie_cases hmovie' with ⟨hmovie', hne⟩ | ⟨stored, -, hstored, rfl⟩
  · exact h.indexed movie' hmovie' hne hstatus row (hrows row hrow (hid ▸ hne)) hid
  · obtain ⟨-, hpositive, -⟩ := freshStatus_eq_indexed hstatus
    exact Nat.pos_of_ne_zero (hpositive row hrow (hid.trans hstored))
  · exact h.pending movie' hmovie' hne hstatus row (hrows row hrow (hid ▸ hne)) hid
  · exact freshStatus_ne_pending hstatus

theorem Settled.reconcileBoundary (h : t.Settled) {messageId : ℕ} :
    (t.reconcileBoundary parser channelId messageId).Settled := by
  unfold ArchiveTables.reconcileBoundary
  split
  · exact h
  · exact h.except.revalidateMovie

omit [UnicodeData] in
/-- A new movie is pending and has no rows. -/
theorem SettledExcept.insertMovie {exempt : ℕ → Prop} (h : t.SettledExcept exempt) (ht : t.Linked)
    {new : Movie} (hid : new.id = t.movies.freshKey) (hpending : new.status = .pending) :
    (t.insertMovie new).SettledExcept exempt := by
  refine ⟨fun movie hmovie hnot hstatus => ?_, fun movie hmovie hnot hstatus => ?_⟩
  all_goals rcases KeyedTable.mem_of_mem_insert hmovie with rfl | hmovie
  · cases hpending.symm.trans hstatus
  · exact h.indexed movie hmovie hnot hstatus
  · intro row hrow hrow_id
    obtain ⟨owner, howner, -⟩ := ht.rowMovie row hrow
    rw [hrow_id, hid, KeyedTable.find?_freshKey] at howner
    cases howner
  · exact h.pending movie hmovie hnot hstatus

omit [UnicodeData] in
theorem Settled.closePending (h : t.Settled) {previous : Movie} :
    (t.closePending previous).SettledExcept (· = previous.id) := by
  unfold ArchiveTables.closePending
  split
  · exact h.updateMovie
  · exact h.except

/-- **Indexing keeps the movies settled.** -/
theorem Settled.indexStep (h : t.Settled) (ht : t.Linked)
    (hstep : IndexStep parser t channelId message t') : t'.Settled := by
  cases hstep with
  | posterInvalid movie hposter => exact h.except.setAmbiguous fun _ => rfl
  | posterValid movie group hposter hgroup =>
      have hset : (t.updateMovie movie.id (setPoster group)).SettledExcept
          (· = (setPoster group movie).id) := h.updateMovie
      exact hset.revalidateMovie
  | qualityInvalid row movie f hf hposter hrow hmovie =>
      have hid : movie.id = row.movieId := KeyedTable.key_of_find? hmovie
      have hset : (t.updateQuality row.id f hf.id).SettledExcept (· = row.movieId) :=
        h.updateQuality (attachedQuality?_eq_some hrow).1 (hf.movieId row)
      exact (hid ▸ hset).setAmbiguous fun _ => rfl
  | qualityValid row movie parsed hposter hrow hmovie hparsed hfree =>
      have hid : movie.id = row.movieId := KeyedTable.key_of_find? hmovie
      have hset : (t.updateQuality row.id (setQualityColumns parsed)).SettledExcept
          (· = row.movieId) := h.updateQuality (attachedQuality?_eq_some hrow).1 rfl
      exact (hid ▸ hset).revalidateMovie
  | boundary hposter hrow => exact h.reconcileBoundary
  | newPoster group hposter hrow hgroup =>
      rw [← posterMessageId_of_parsePoster hgroup] at hposter
      rw [upsertPoster_eq hposter]
      split
      · next previous hprevious =>
          rw [addPoster_eq hprevious]
          have hlinked : (t.closePending previous).Linked :=
            ht.of_samePlaces samePlaces_closePending
          exact (h.closePending.insertMovie hlinked rfl rfl).revalidateMovie
      · next hnone =>
          rw [addPoster_eq_of_none hnone]
          exact h.insertMovie ht rfl rfl
  | candidateIgnored hposter hrow hkind hquality hignored => exact h
  -- only rows of the movie change, and it is revalidated
  | candidateAccepted movie parsed hposter hrow hmovie hparsed =>
      have hset :
          (t.upsertQualityRow movie.id channelId parsed).1.SettledExcept (· = movie.id) := by
        refine h.frame (fun other hother _ => movies_upsertQualityRow ▸ hother)
          fun row hrow hne => ?_
        rcases mem_upsertQualityRow hrow with hrow | ⟨hrow_movie, -⟩
        · exact hrow
        · exact absurd hrow_movie hne
      exact hset.revalidateMovie

/-- A conflict sets the movie of its row aside. -/
theorem Settled.invalidateSnapshotConflict (h : t.Settled) {messageId : ℕ} :
    (t.invalidateSnapshotConflict parser channelId messageId).Settled := by
  unfold ArchiveTables.invalidateSnapshotConflict
  split
  · exact h.except.setAmbiguous fun _ => rfl
  · split
    · next row movie hrow hmovie =>
        obtain ⟨hmem, -⟩ := attachedQuality?_eq_some hrow
        have hid : movie.id = row.movieId := by
          rw [attachedMovie?, hrow, Option.bind_some] at hmovie
          exact KeyedTable.key_of_find? hmovie
        have hset : (t.updateQuality row.id fun r =>
            { r with parserConfidence := 0 }).SettledExcept (· = row.movieId) :=
          h.updateQuality hmem rfl
        exact (hid ▸ hset).setAmbiguous fun _ => rfl
    · exact h.reconcileBoundary

omit [UnicodeData] in
/-- Snapshots decide nothing by themselves. -/
theorem Settled.of_eq (h : t.Settled) (hmovies : t'.movies = t.movies)
    (hqualities : t'.qualities = t.qualities) : t'.Settled := by
  obtain ⟨hindexed, hpending⟩ := h
  exact ⟨hmovies ▸ hqualities ▸ hindexed, hmovies ▸ hqualities ▸ hpending⟩

/-- **A call keeps the movies settled.** -/
theorem Settled.call (h : t.Settled) (ht : t.Linked) (c : ArchiveCall) :
    (t.call parser c).Settled := by
  have hstep : CallStep parser t c (t.call parser c) := ht.callStep c
  generalize t.call parser c = t' at hstep
  cases hstep with
  | unchanged => exact h
  | conflicted s hs hfate hkeys =>
      have hmarked : (t.markConflict c.channelId c.message.messageId).Settled := h.of_eq rfl rfl
      exact hmarked.invalidateSnapshotConflict
  | indexed _ hid hfate hindex hkeys =>
      have hrecorded : (t.recordMessage c.channelId c.message).Settled :=
        h.of_eq movies_recordMessage qualities_recordMessage
      exact hrecorded.indexStep ht.recordMessage hindex

/-- Every movie is settled after any calls. -/
theorem run_settled (calls : List ArchiveCall) :
    (Transition.run (call parser) empty calls).Settled := by
  induction calls using List.reverseRecOn with
  | nil => exact empty_settled
  | append_singleton calls c ih =>
      rw [Transition.run_snoc]
      exact ih.call (run_sound calls).toLinked c

end

/-! ### What a session accepts -/

/-- The row that is accepted. -/
theorem offeredQuality?_eq_some {row : MovieQuality}
    (h : t.offeredQuality? movieId quality = some row) :
    row ∈ t.qualities ∧ row.movieId = movieId ∧ row.quality.label = quality ∧
      0 < row.parserConfidence ∧ ∃ movie, t.movies.find? movieId = some movie ∧
        movie.status = .indexed := by
  have hfound := List.find?_some h
  simp only [Bool.and_eq_true, decide_eq_true_eq, Option.any_eq_true] at hfound
  obtain ⟨⟨⟨hmovie, hquality⟩, hconfidence⟩, movie, hfind, hindexed⟩ := hfound
  exact ⟨List.mem_of_find?_eq_some h, hmovie, hquality, hconfidence, movie, hmovie ▸ hfind,
    hindexed⟩

/-- Of settled tables every listed resolution is accepted. -/
theorem Settled.lists_iff (h : t.Settled) :
    t.Lists movieId quality ↔ ∃ row, t.offeredQuality? movieId quality = some row := by
  rw [ArchiveTables.lists_iff]
  constructor
  · rintro ⟨⟨movie, hmovie, hindexed⟩, row, hrow, hid, hquality⟩
    obtain ⟨hmem, hmovie_id⟩ := KeyedTable.find?_eq_some.1 hmovie
    have hpositive : 0 < row.parserConfidence :=
      h.indexed movie hmem not_false hindexed row hrow (hid.trans hmovie_id.symm)
    have hany : (t.movies.find? row.movieId).any fun movie => movie.status = .indexed := by
      rw [hid, hmovie]
      exact decide_eq_true hindexed
    refine Option.isSome_iff_exists.1 (List.find?_isSome.2 ⟨row, hrow, ?_⟩)
    simp [hid, hquality, hpositive, hid ▸ hany]
  · rintro ⟨row, hrow⟩
    obtain ⟨hmem, hid, hquality, -, hindexed⟩ := offeredQuality?_eq_some hrow
    exact ⟨hindexed, row, hmem, hid, hquality⟩

/-- A session that is bound to the accepted row can be delivered. -/
theorem bindingReason_of_offered {row : MovieQuality} {reward : RewardSession}
    (h : t.offeredQuality? movieId quality = some row) (hmovie : reward.movieId = movieId)
    (hrow : reward.movieQualityId = row.id) (hquality : reward.quality.label = quality) :
    t.bindingReason reward = none := by
  obtain ⟨hmem, hid, hlabel, hpositive, movie, hfind, hindexed⟩ := offeredQuality?_eq_some h
  have hsame : row.quality = reward.quality :=
    Resolution.label_injective (hlabel.trans hquality.symm)
  rw [bindingReason, hmovie, hfind, hrow, KeyedTable.find?_of_mem hmem]
  simp [availabilityReason, hid, hmovie, hsame, hindexed, hpositive.ne']

end ArchiveTables

/-- `RewardQualityUnavailable` is raised for a resolution that is not offered, and for no other. -/
theorem getOrCreate_eq_qualityUnavailable {db : Db} {telegramUserId : ℤ} {movieId newId : ℕ}
    {quality : Str} {clock : Clock} :
    getOrCreate db telegramUserId movieId quality newId clock = .error .qualityUnavailable ↔
      db.archive.offeredQuality? movieId quality = none := by
  have hcommit : ∀ (db : Db) (result : RewardSessionView × Bool),
      db.commitReward result ≠ .error .qualityUnavailable := by
    intro db result
    unfold Db.commitReward
    split <;> exact nofun
  constructor
  · intro h
    unfold getOrCreate at h
    split at h
    · next hnone => exact hnone
    · dsimp only at h
      repeat' split at h
      all_goals first | exact absurd h (hcommit _ _) | cases h
  · intro h
    rw [getOrCreate, h]

namespace ArchiveTables

/-- **What the view lists, the reward accepts**, after any calls of the indexer: the same
resolutions are listed and looked up, a session bound to the row found is available, and
`get_or_create` refuses exactly what is not listed. -/
theorem listed_iff_accepted [UnicodeData] (parser : ArchiveParser) (calls : List ArchiveCall)
    (movieId : ℕ) (quality : Str) :
    let t := Transition.run (call parser) empty calls
    (t.Lists movieId quality ↔ ∃ row, t.offeredQuality? movieId quality = some row) ∧
      (∀ row, t.offeredQuality? movieId quality = some row → ∀ reward : RewardSession,
        reward.movieId = movieId → reward.movieQualityId = row.id →
          reward.quality.label = quality → t.bindingReason reward = none) ∧
      ∀ (db : Db) (telegramUserId : ℤ) (newId : ℕ) (clock : Clock), db.archive = t →
        (getOrCreate db telegramUserId movieId quality newId clock = .error .qualityUnavailable ↔
          ¬t.Lists movieId quality) := by
  intro t
  have ht : t.Settled := run_settled calls
  refine ⟨ht.lists_iff, fun row hrow reward => bindingReason_of_offered hrow,
    fun db telegramUserId newId clock hdb => ?_⟩
  rw [getOrCreate_eq_qualityUnavailable, hdb, ht.lists_iff, ← Option.isSome_iff_exists]
  exact Option.not_isSome_iff_eq_none.symm

end ArchiveTables

end CineGate
