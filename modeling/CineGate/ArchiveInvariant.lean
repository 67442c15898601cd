/-
**The invariant of the archive tables.**

Whatever the order of the calls, posters and attached messages stay recorded and different, a row
stays with its movie, the unique constraints hold, and a row with a positive confidence is backed by
the recorded snapshot of its message: it is not in conflict, it is a video or a document, and its
caption advertises the resolution of the row.

* `ArchiveTables.SamePlaces` — an update that moves no movie and no row;
* `ArchiveTables.Backed` — the rows are backed by snapshots;
* `ArchiveTables.Sound`, `ArchiveTables.Sound.call` — the invariant, and that a call keeps it.
-/

import CineGate.ArchiveSteps

set_option relaxedAutoImplicit false
set_option autoImplicit false

namespace CineGate

namespace ArchiveTables

/-! ### Updates in place -/

/-- The channel and the poster of a movie. -/
def moviePlace (movie : Movie) : ℤ × ℕ := (movie.archiveChannelId, movie.posterMessageId)

/-- The movie, the channel and the message of a row. -/
def rowPlace (row : MovieQuality) : ℕ × ℤ × ℕ :=
  (row.movieId, row.archiveChannelId, row.archiveMessageId)

/-- The same movies with the same posters, the same rows attached to the same messages, and every
snapshot still there. -/
structure SamePlaces (t t' : ArchiveTables) : Prop where
  movies : ∀ id, (t'.movies.find? id).map moviePlace = (t.movies.find? id).map moviePlace
  rows : ∀ id, (t'.qualities.find? id).map rowPlace = (t.qualities.find? id).map rowPlace
  snapshots : ∀ channelId messageId, (t.snapshot? channelId messageId).isSome →
    (t'.snapshot? channelId messageId).isSome

variable {t t' t'' : ArchiveTables}

theorem SamePlaces.refl : SamePlaces t t := ⟨fun _ => rfl, fun _ => rfl, fun _ _ h => h⟩

theorem SamePlaces.trans (h : SamePlaces t t') (h' : SamePlaces t' t'') : SamePlaces t t'' :=
  ⟨fun id => (h'.movies id).trans (h.movies id), fun id => (h'.rows id).trans (h.rows id),
    fun channelId messageId hsome =>
      h'.snapshots channelId messageId (h.snapshots channelId messageId hsome)⟩

theorem samePlaces_modifyMovies {f : Movie → Movie} {hf : ∀ movie, (f movie).id = movie.id}
    (hplace : ∀ movie, moviePlace (f movie) = moviePlace movie) :
    SamePlaces t { t with movies := t.movies.modify f hf } := by
  refine ⟨fun id => ?_, fun _ => rfl, fun _ _ h => h⟩
  rw [KeyedTable.find?_modify, Option.map_map]
  congr 1
  exact funext hplace

theorem samePlaces_modifyQualities {f : MovieQuality → MovieQuality}
    {hf : ∀ row, (f row).id = row.id} (hplace : ∀ row, rowPlace (f row) = rowPlace row) :
    SamePlaces t { t with qualities := t.qualities.modify f hf } := by
  refine ⟨fun _ => rfl, fun id => ?_, fun _ _ h => h⟩
  rw [KeyedTable.find?_modify, Option.map_map]
  congr 1
  exact funext hplace

theorem samePlaces_updateMovie {movieId : ℕ} {f : Movie → Movie}
    {hf : ∀ movie, (f movie).id = movie.id}
    (hplace : ∀ movie, moviePlace (f movie) = moviePlace movie) :
    SamePlaces t (t.updateMovie movieId f hf) := by
  refine samePlaces_modifyMovies fun movie => ?_
  split
  · exact hplace movie
  · rfl

theorem samePlaces_updateQuality {rowId : ℕ} {f : MovieQuality → MovieQuality}
    {hf : ∀ row, (f row).id = row.id} (hplace : ∀ row, rowPlace (f row) = rowPlace row) :
    SamePlaces t (t.updateQuality rowId f hf) := by
  refine samePlaces_modifyQualities fun row => ?_
  split
  · exact hplace row
  · rfl

theorem samePlaces_setStatus {movieId : ℕ} {status : MovieStatus} :
    SamePlaces t (t.updateMovie movieId fun m => { m with status }) :=
  samePlaces_updateMovie fun _ => rfl

theorem samePlaces_setPoster {movieId : ℕ} {group : ParsedMovieGroup} :
    SamePlaces t (t.updateMovie movieId (setPoster group)) := samePlaces_updateMovie fun _ => rfl

theorem samePlaces_invalidatePoster {movie : Movie} {message : ArchiveMessage} :
    SamePlaces t (t.invalidatePoster movie message) := by
  unfold invalidatePoster
  exact samePlaces_updateMovie fun _ => rfl

theorem samePlaces_setQualityColumns {rowId : ℕ} {parsed : ParsedQuality} :
    SamePlaces t (t.updateQuality rowId (setQualityColumns parsed)) :=
  samePlaces_updateQuality fun _ => rfl

theorem samePlaces_updateSnapshot {channelId : ℤ} {messageId : ℕ}
    {f : ArchiveMessageSnapshot → ArchiveMessageSnapshot} {hf : ∀ s, (f s).key = s.key} :
    SamePlaces t (t.updateSnapshot channelId messageId f hf) := by
  refine ⟨fun _ => rfl, fun _ => rfl, fun channelId' messageId' h => ?_⟩
  rw [snapshot?_updateSnapshot]
  split
  · next hkey =>
      obtain ⟨rfl, rfl⟩ : channelId' = channelId ∧ messageId' = messageId :=
        Prod.ext_iff.1 (toLex.injective hkey)
      rw [Option.isSome_map]
      exact h
  · exact h

theorem samePlaces_recordMessage {channelId : ℤ} {message : ArchiveMessage} :
    SamePlaces t (t.recordMessage channelId message) :=
  ⟨fun _ => by rw [movies_recordMessage], fun _ => by rw [qualities_recordMessage],
    fun _ _ h => isSome_snapshot?_recordMessage h⟩

/-- A row after a write: another one, or the written one. -/
theorem mem_updateQuality {row : MovieQuality} {f : MovieQuality → MovieQuality}
    {hf : ∀ row, (f row).id = row.id} (hmem : row ∈ t.qualities) {row' : MovieQuality}
    (h : row' ∈ (t.updateQuality row.id f hf).qualities) :
    row' ∈ t.qualities ∧ row'.id ≠ row.id ∨ row' = f row := by
  have h : row' ∈ t.qualities.modifyAt row.id f hf := h
  rcases KeyedTable.mem_modifyAt.1 h with hother | ⟨row₀, hrow₀, hid, rfl⟩
  · exact .inl hother
  · rw [t.qualities.ext_key hrow₀ hmem hid]
    exact .inr rfl

theorem mem_updateQuality_of_ne {row : MovieQuality} {rowId : ℕ} {f : MovieQuality → MovieQuality}
    {hf : ∀ row, (f row).id = row.id} (hmem : row ∈ t.qualities) (hne : row.id ≠ rowId) :
    row ∈ (t.updateQuality rowId f hf).qualities := by
  have hrow : row ∈ t.qualities.modifyAt rowId f hf := KeyedTable.mem_modifyAt.2 (.inl ⟨hmem, hne⟩)
  exact hrow

theorem mem_updateQuality_self {row : MovieQuality} {f : MovieQuality → MovieQuality}
    {hf : ∀ row, (f row).id = row.id} (hmem : row ∈ t.qualities) :
    f row ∈ (t.updateQuality row.id f hf).qualities := by
  have hrow : f row ∈ t.qualities.modifyAt row.id f hf :=
    KeyedTable.mem_modifyAt.2 (.inr ⟨row, hmem, rfl, rfl⟩)
  exact hrow

theorem find?_updateMovie {movieId id : ℕ} {f : Movie → Movie}
    {hf : ∀ movie, (f movie).id = movie.id} :
    (t.updateMovie movieId f hf).movies.find? id =
      if id = movieId then (t.movies.find? movieId).map f else t.movies.find? id :=
  KeyedTable.find?_modifyAt t.movies movieId id f hf

theorem find?_updateMovie_self {movieId : ℕ} {f : Movie → Movie}
    {hf : ∀ movie, (f movie).id = movie.id} {movie : Movie}
    (hmovie : t.movies.find? movieId = some movie) :
    (t.updateMovie movieId f hf).movies.find? movieId = some (f movie) := by
  rw [find?_updateMovie, if_pos rfl, hmovie, Option.map_some]

theorem mem_updateMovie {movie : Movie} {f : Movie → Movie} {hf : ∀ movie, (f movie).id = movie.id}
    (hmem : movie ∈ t.movies) : f movie ∈ (t.updateMovie movie.id f hf).movies :=
  KeyedTable.mem_of_find? (find?_updateMovie_self (KeyedTable.find?_of_mem hmem))

/-- A movie of the updated tables and the movie it was. -/
theorem SamePlaces.movie_origin (h : SamePlaces t t') {movie' : Movie} (hmem : movie' ∈ t'.movies) :
    ∃ movie ∈ t.movies, movie.id = movie'.id ∧
      movie.archiveChannelId = movie'.archiveChannelId ∧
        movie.posterMessageId = movie'.posterMessageId := by
  have hplace := h.movies movie'.id
  rw [KeyedTable.find?_of_mem hmem, Option.map_some] at hplace
  obtain ⟨movie, hmovie, hplace⟩ := Option.map_eq_some_iff.1 hplace.symm
  obtain ⟨hmovie, hid⟩ := KeyedTable.find?_eq_some.1 hmovie
  exact ⟨movie, hmovie, hid, congrArg Prod.fst hplace, congrArg Prod.snd hplace⟩

theorem SamePlaces.row_origin (h : SamePlaces t t') {row' : MovieQuality}
    (hmem : row' ∈ t'.qualities) :
    ∃ row ∈ t.qualities, row.id = row'.id ∧ row.movieId = row'.movieId ∧
      row.archiveChannelId = row'.archiveChannelId ∧
        row.archiveMessageId = row'.archiveMessageId := by
  have hplace := h.rows row'.id
  rw [KeyedTable.find?_of_mem hmem, Option.map_some] at hplace
  obtain ⟨row, hrow, hplace⟩ := Option.map_eq_some_iff.1 hplace.symm
  obtain ⟨hrow, hid⟩ := KeyedTable.find?_eq_some.1 hrow
  exact ⟨row, hrow, hid, congrArg Prod.fst hplace, congrArg (fun p => p.2.1) hplace,
    congrArg (fun p => p.2.2) hplace⟩

/-- The movie of the updated tables under a key. -/
theorem SamePlaces.find?_movie (h : SamePlaces t t') {id : ℕ} {movie : Movie}
    (hmovie : t.movies.find? id = some movie) :
    ∃ movie', t'.movies.find? id = some movie' ∧
      movie'.archiveChannelId = movie.archiveChannelId ∧
        movie'.posterMessageId = movie.posterMessageId := by
  have hplace := h.movies id
  rw [hmovie, Option.map_some] at hplace
  obtain ⟨movie', hmovie', hplace⟩ := Option.map_eq_some_iff.1 hplace
  exact ⟨movie', hmovie', congrArg Prod.fst hplace, congrArg Prod.snd hplace⟩

/-- **Updates in place keep the links.** -/
theorem Linked.of_samePlaces (ht : t.Linked) (h : SamePlaces t t') : t'.Linked := by
  constructor
  · intro movie' hmovie'
    obtain ⟨movie, hmovie, -, hchannel, hposter⟩ := h.movie_origin hmovie'
    rw [← hchannel, ← hposter]
    exact h.snapshots _ _ (ht.posterRecorded movie hmovie)
  · intro row' hrow'
    obtain ⟨row, hrow, -, -, hchannel, hmessage⟩ := h.row_origin hrow'
    rw [← hchannel, ← hmessage]
    exact h.snapshots _ _ (ht.rowRecorded row hrow)
  · intro row' hrow'
    obtain ⟨row, hrow, -, hmovieId, hchannel, hmessage⟩ := h.row_origin hrow'
    obtain ⟨movie, hmovie, hmovieChannel, hlt⟩ := ht.rowMovie row hrow
    obtain ⟨movie', hmovie', hchannel', hposter'⟩ := h.find?_movie hmovie
    exact ⟨movie', hmovieId ▸ hmovie', by rw [hchannel', hmovieChannel, hchannel],
      by rw [hposter', ← hmessage]; exact hlt⟩
  · intro row' hrow' movie' hmovie' hsame
    obtain ⟨row, hrow, -, -, hchannel, hmessage⟩ := h.row_origin hrow'
    obtain ⟨movie, hmovie, -, hmovieChannel, hposter⟩ := h.movie_origin hmovie'
    rw [← hposter, ← hmessage]
    exact ht.disjoint row hrow movie hmovie (by rw [hmovieChannel, hsame, hchannel])

/-! ### Revalidation -/

/-- What revalidation keeps of a row. -/
theorem revalidateRow_frame (accepted : List ParsedQuality) (row : MovieQuality) :
    (revalidateRow accepted row).id = row.id ∧
      rowPlace (revalidateRow accepted row) = rowPlace row ∧
      (revalidateRow accepted row).quality = row.quality := by
  unfold revalidateRow
  split
  · exact ⟨rfl, rfl, rfl⟩
  · split <;> exact ⟨rfl, rfl, rfl⟩

section Revalidation

variable [UnicodeData] {parser : ArchiveParser} {movie : Movie}

theorem samePlaces_revalidateAttachedQualities :
    SamePlaces t (t.revalidateAttachedQualities parser movie) := by
  refine samePlaces_modifyQualities fun row => ?_
  split
  · exact (revalidateRow_frame _ row).2.1
  · rfl

theorem samePlaces_revalidateMovie : SamePlaces t (t.revalidateMovie parser movie).1 :=
  samePlaces_revalidateAttachedQualities.trans samePlaces_setStatus

@[simp] theorem snapshots_revalidateMovie :
    (t.revalidateMovie parser movie).1.snapshots = t.snapshots := rfl

/-- A row after revalidation: reread for the movie, or as before. -/
theorem mem_qualities_revalidateMovie {row' : MovieQuality}
    (h : row' ∈ (t.revalidateMovie parser movie).1.qualities) :
    ∃ row ∈ t.qualities, row' = if row.movieId = movie.id then
      revalidateRow (t.acceptedQualities parser movie) row else row := by
  obtain ⟨row, hrow, rfl⟩ := List.mem_map.1 h
  exact ⟨row, hrow, rfl⟩

end Revalidation

/-! ### Backed rows -/

/-- The snapshot of the row's message shows its resolution. -/
def Backs (t : ArchiveTables) (row : MovieQuality) : Prop :=
  ∃ s, t.snapshot? row.archiveChannelId row.archiveMessageId = some s ∧ ShowsQuality s row.quality

/-- Every row with a positive confidence is backed by its snapshot. -/
def Backed (t : ArchiveTables) : Prop := ∀ row ∈ t.qualities, 0 < row.parserConfidence → t.Backs row

/-- The rows are backed, those of one message left out. -/
def BackedExcept (t : ArchiveTables) (channelId : ℤ) (messageId : ℕ) : Prop :=
  ∀ row ∈ t.qualities, ¬ (row.archiveChannelId = channelId ∧ row.archiveMessageId = messageId) →
    0 < row.parserConfidence → t.Backs row

/-- Without rows at the message there is no exception. -/
theorem BackedExcept.backed {channelId : ℤ} {messageId : ℕ}
    (h : t.BackedExcept channelId messageId)
    (hnone : ∀ row ∈ t.qualities, row.archiveChannelId = channelId →
      row.archiveMessageId ≠ messageId) : t.Backed :=
  fun row hrow hconfidence =>
    h row hrow (fun hplace => hnone row hrow hplace.1 hplace.2) hconfidence

/-- Snapshots and rows decide what is backed. -/
theorem Backed.of_eq (h : t.Backed) (hsnapshots : t'.snapshots = t.snapshots)
    (hqualities : t'.qualities = t.qualities) : t'.Backed := by
  intro row hrow hconfidence
  rw [hqualities] at hrow
  obtain ⟨s, hs, hshows⟩ := h row hrow hconfidence
  exact ⟨s, by rw [snapshot?, hsnapshots]; exact hs, hshows⟩

theorem Backed.recordMessage {channelId : ℤ} {message : ArchiveMessage} (h : t.Backed) :
    (t.recordMessage channelId message).BackedExcept channelId message.messageId := by
  intro row hrow hplace hconfidence
  rw [qualities_recordMessage] at hrow
  obtain ⟨s, hs, hshows⟩ := h row hrow hconfidence
  refine ⟨s, ?_, hshows⟩
  rw [snapshot?_recordMessage, if_neg fun hkey =>
    hplace (Prod.ext_iff.1 (toLex.injective hkey)), hs]

theorem Backed.updateSnapshot {channelId : ℤ} {messageId : ℕ}
    {f : ArchiveMessageSnapshot → ArchiveMessageSnapshot} {hf : ∀ s, (f s).key = s.key}
    (h : t.Backed) :
    (t.updateSnapshot channelId messageId f hf).BackedExcept channelId messageId := by
  intro row hrow hplace hconfidence
  obtain ⟨s, hs, hshows⟩ := h row hrow hconfidence
  refine ⟨s, ?_, hshows⟩
  rw [snapshot?_updateSnapshot, if_neg fun hkey =>
    hplace (Prod.ext_iff.1 (toLex.injective hkey)), hs]

/-- Setting the row of the exceptional message aside ends the exception. -/
theorem BackedExcept.setAside {channelId : ℤ} {messageId : ℕ} {row : MovieQuality}
    {f : MovieQuality → MovieQuality} (h : t.BackedExcept channelId messageId) (hf : SetsAside f)
    (hkeys : ∀ row' ∈ t.qualities, row'.archiveChannelId = channelId →
      row'.archiveMessageId = messageId → row' = row) :
    (t.updateQuality row.id f hf.id).Backed := by
  intro row' hrow' hconfidence
  have hrow' : row' ∈ t.qualities.modifyAt row.id f hf.id := hrow'
  rcases KeyedTable.mem_modifyAt.1 hrow' with ⟨hrow', hne⟩ | ⟨row₀, -, -, rfl⟩
  · refine h row' hrow' (fun hplace => hne ?_) hconfidence
    rw [hkeys row' hrow' hplace.1 hplace.2]
  · rw [hf.parserConfidence] at hconfidence
    cases hconfidence

/-- **Revalidation backs the rows of its movie.** -/
theorem backed_revalidateMovie [UnicodeData] {parser : ArchiveParser} {movie : Movie}
    (hchannel : ∀ row ∈ t.qualities, row.movieId = movie.id →
      row.archiveChannelId = movie.archiveChannelId)
    (h : ∀ row ∈ t.qualities, row.movieId ≠ movie.id → 0 < row.parserConfidence → t.Backs row) :
    (t.revalidateMovie parser movie).1.Backed := by
  intro row' hrow' hconfidence
  obtain ⟨row, hrow, rfl⟩ := mem_qualities_revalidateMovie hrow'
  split at hconfidence
  · next hmovie =>
      rw [if_pos hmovie]
      unfold revalidateRow at hconfidence ⊢
      split at hconfidence
      · cases hconfidence
      · next parsed hfound =>
          split at hconfidence
          · next hquality =>
              rw [if_pos hquality]
              obtain ⟨-, s, hs, hs_channel, hs_message, hshows⟩ :=
                mem_acceptedQualities (List.mem_of_find?_eq_some hfound)
              have hmessage : parsed.messageId = row.archiveMessageId := by
                simpa using List.find?_some hfound
              refine ⟨s, ?_, hquality ▸ hshows⟩
              refine KeyedTable.find?_eq_some.2 ⟨hs, ?_⟩
              rw [ArchiveMessageSnapshot.key, hs_channel, hs_message, hmessage,
                hchannel row hrow hmovie]
          · cases hconfidence
  · next hmovie =>
      rw [if_neg hmovie]
      exact h row hrow hmovie hconfidence

/-! ### New posters and new rows -/

theorem samePlaces_closePending {previous : Movie} : SamePlaces t (t.closePending previous) := by
  unfold closePending
  split
  · exact samePlaces_updateMovie fun _ => rfl
  · exact .refl

theorem SamePlaces.posterMovie?_eq_none (h : SamePlaces t t') {channelId : ℤ} {messageId : ℕ}
    (hnone : t.posterMovie? channelId messageId = none) :
    t'.posterMovie? channelId messageId = none := by
  cases hposter : t'.posterMovie? channelId messageId with
  | none => rfl
  | some movie' =>
      obtain ⟨hmem, hchannel, hid⟩ := posterMovie?_eq_some hposter
      obtain ⟨movie, hmovie, -, hchannel', hid'⟩ := h.movie_origin hmem
      exact absurd (hid'.trans hid)
        (ArchiveTables.posterMovie?_eq_none hnone movie hmovie (hchannel'.trans hchannel))

theorem Linked.insertMovie (ht : t.Linked) {movie : Movie} (hnew : t.movies.find? movie.id = none)
    (hrecorded : (t.snapshot? movie.archiveChannelId movie.posterMessageId).isSome)
    (hfree : ∀ row ∈ t.qualities, row.archiveChannelId = movie.archiveChannelId →
      row.archiveMessageId ≠ movie.posterMessageId) :
    Linked { t with movies := t.movies.insert movie } := by
  constructor
  · intro movie' hmovie'
    rcases KeyedTable.mem_of_mem_insert hmovie' with rfl | hmovie'
    · exact hrecorded
    · exact ht.posterRecorded movie' hmovie'
  · exact ht.rowRecorded
  · intro row hrow
    obtain ⟨owner, howner, hplace⟩ := ht.rowMovie row hrow
    refine ⟨owner, ?_, hplace⟩
    rw [KeyedTable.find?_insert hnew, if_neg, howner]
    rintro hid
    rw [hid, howner] at hnew
    cases hnew
  · intro row hrow movie' hmovie' hchannel
    rcases KeyedTable.mem_of_mem_insert hmovie' with rfl | hmovie'
    · exact (hfree row hrow hchannel.symm).symm
    · exact ht.disjoint row hrow movie' hmovie' hchannel

/-- A row of the tables after `ON CONFLICT DO UPDATE`: an earlier one, or the one written. -/
theorem mem_upsertQualityRow {movieId : ℕ} {channelId : ℤ} {parsed : ParsedQuality}
    {row' : MovieQuality} (h : row' ∈ (t.upsertQualityRow movieId channelId parsed).1.qualities) :
    row' ∈ t.qualities ∨ row'.movieId = movieId ∧ row'.archiveChannelId = channelId ∧
      row'.archiveMessageId = parsed.messageId ∧ row'.quality = parsed.quality := by
  unfold upsertQualityRow at h
  split at h
  · rcases KeyedTable.mem_of_mem_insert h with rfl | h
    · exact .inr ⟨rfl, rfl, rfl, rfl⟩
    · exact .inl h
  · next row hrow =>
      have hfound := List.find?_some hrow
      simp only [Bool.and_eq_true, decide_eq_true_eq] at hfound
      split at h
      · obtain ⟨row₀, hrow₀, rfl⟩ := List.mem_map.1 h
        split
        · next hid =>
            have heq : row₀ = row := t.qualities.ext_key hrow₀ (List.mem_of_find?_eq_some hrow) hid
            exact .inr ⟨by rw [heq]; exact hfound.1, rfl, rfl, by rw [heq]; exact hfound.2⟩
        · exact .inl hrow₀
      · exact .inl h

theorem movies_upsertQualityRow {movieId : ℕ} {channelId : ℤ} {parsed : ParsedQuality} :
    (t.upsertQualityRow movieId channelId parsed).1.movies = t.movies := by
  unfold upsertQualityRow
  split
  · rfl
  · split <;> rfl

theorem snapshots_upsertQualityRow {movieId : ℕ} {channelId : ℤ} {parsed : ParsedQuality} :
    (t.upsertQualityRow movieId channelId parsed).1.snapshots = t.snapshots := by
  unfold upsertQualityRow
  split
  · rfl
  · split <;> rfl

theorem Linked.upsertQualityRow (ht : t.Linked) {movie : Movie} {channelId : ℤ}
    {parsed : ParsedQuality} (hmovie : t.movies.find? movie.id = some movie)
    (hchannel : movie.archiveChannelId = channelId) (hlt : movie.posterMessageId < parsed.messageId)
    (hrecorded : (t.snapshot? channelId parsed.messageId).isSome)
    (hposter : t.posterMovie? channelId parsed.messageId = none) :
    (t.upsertQualityRow movie.id channelId parsed).1.Linked := by
  constructor
  · intro movie' hmovie'
    rw [movies_upsertQualityRow] at hmovie'
    rw [snapshot?, snapshots_upsertQualityRow]
    exact ht.posterRecorded movie' hmovie'
  · intro row' hrow'
    rw [snapshot?, snapshots_upsertQualityRow]
    rcases mem_upsertQualityRow hrow' with hrow' | ⟨-, hrow_channel, hrow_message, -⟩
    · exact ht.rowRecorded row' hrow'
    · rw [hrow_channel, hrow_message]
      exact hrecorded
  · intro row' hrow'
    rw [movies_upsertQualityRow]
    rcases mem_upsertQualityRow hrow' with hrow' | ⟨hrow_movie, hrow_channel, hrow_message, -⟩
    · exact ht.rowMovie row' hrow'
    · exact ⟨movie, hrow_movie ▸ hmovie, hchannel.trans hrow_channel.symm, hrow_message ▸ hlt⟩
  · intro row' hrow' movie' hmovie' hsame
    rw [movies_upsertQualityRow] at hmovie'
    rcases mem_upsertQualityRow hrow' with hrow' | ⟨-, hrow_channel, hrow_message, -⟩
    · exact ht.disjoint row' hrow' movie' hmovie' hsame
    · rw [hrow_message]
      exact ArchiveTables.posterMovie?_eq_none hposter movie' hmovie' (hsame.trans hrow_channel)

section Index

variable [UnicodeData] {parser : ArchiveParser} {channelId : ℤ} {message : ArchiveMessage}

/-- A single photo is a group when it is a poster. -/
theorem parsePoster_eq_some {group : ParsedMovieGroup}
    (h : parsePoster parser message = some group) :
    ∃ poster, detectPoster message = some poster ∧ group = parser.groupOf none (poster, []) := by
  have hasc : AscendingFrom 0 [message] := by
    simp [AscendingFrom, message.messageId_pos]
  unfold parsePoster at h
  rw [ArchiveParser.parse_eq hasc, movieWindows] at h
  cases hposter : detectPoster message with
  | none =>
      rw [hposter] at h
      cases h
  | some poster =>
      rw [hposter] at h
      cases h
      exact ⟨poster, rfl, rfl⟩

theorem posterMessageId_of_parsePoster {group : ParsedMovieGroup}
    (h : parsePoster parser message = some group) : group.posterMessageId = message.messageId := by
  obtain ⟨poster, hposter, rfl⟩ := parsePoster_eq_some h
  rw [posterMessageId_groupOf, message_of_detectPoster hposter]

/-- The tables in which a new poster has been added, its predecessor decided. -/
def addPoster (t : ArchiveTables) (channelId : ℤ) (group : ParsedMovieGroup) : ArchiveTables :=
  let t := match t.movieBefore? channelId group.posterMessageId with
    | some previous => t.closePending previous
    | none => t
  { t with movies := t.movies.insert (newMovie t.movies.freshKey channelId group) }

/-- The tables with a new movie. -/
def insertMovie (t : ArchiveTables) (new : Movie) : ArchiveTables :=
  { t with movies := t.movies.insert new }

omit [UnicodeData] in
/-- The movie before a new poster is decided and stays in its place. -/
theorem find?_closePending {previous : Movie} (hmem : previous ∈ t.movies) :
    ∃ stored, (t.closePending previous).movies.find? previous.id = some stored ∧
      moviePlace stored = moviePlace previous ∧
        stored.parserConfidence = previous.parserConfidence := by
  have hfind := KeyedTable.find?_of_mem hmem
  unfold closePending
  split
  · exact ⟨_, find?_updateMovie_self hfind, rfl, rfl⟩
  · exact ⟨previous, hfind, rfl, rfl⟩

omit [UnicodeData] in
theorem addPoster_eq {group : ParsedMovieGroup} {previous : Movie}
    (hbefore : t.movieBefore? channelId group.posterMessageId = some previous) :
    t.addPoster channelId group = (t.closePending previous).insertMovie
      (newMovie (t.closePending previous).movies.freshKey channelId group) := by
  unfold addPoster
  rw [hbefore]
  rfl

omit [UnicodeData] in
theorem addPoster_eq_of_none {group : ParsedMovieGroup}
    (hbefore : t.movieBefore? channelId group.posterMessageId = none) :
    t.addPoster channelId group = t.insertMovie (newMovie t.movies.freshKey channelId group) := by
  unfold addPoster
  rw [hbefore]
  rfl

/-- `_upsert_poster` for a poster that is not there yet. -/
theorem upsertPoster_eq {group : ParsedMovieGroup}
    (hposter : t.posterMovie? channelId group.posterMessageId = none) :
    (t.upsertPoster parser channelId group).1 =
      match t.movieBefore? channelId group.posterMessageId with
      | some previous => ((t.addPoster channelId group).revalidateMovie parser previous).1
      | none => t.addPoster channelId group := by
  unfold upsertPoster addPoster
  cases t.movieBefore? channelId group.posterMessageId with
  | none => simp [hposter]
  | some previous =>
      have hclosed : (t.closePending previous).posterMovie? channelId group.posterMessageId =
          none :=
        samePlaces_closePending.posterMovie?_eq_none hposter
      simp [hclosed]

omit [UnicodeData] in
theorem Linked.addPoster (ht : t.Linked) {group : ParsedMovieGroup}
    (hrecorded : (t.snapshot? channelId group.posterMessageId).isSome)
    (hfree : t.attachedQuality? channelId group.posterMessageId = none) :
    (t.addPoster channelId group).Linked := by
  have hfree := attachedQuality?_eq_none hfree
  unfold ArchiveTables.addPoster
  split
  · next previous _ =>
      refine (ht.of_samePlaces samePlaces_closePending).insertMovie (KeyedTable.find?_freshKey _)
        ?_ ?_
      · exact samePlaces_closePending.snapshots _ _ hrecorded
      · intro row hrow
        have hsame : SamePlaces t (t.closePending previous) := samePlaces_closePending
        obtain ⟨row₀, hrow₀, -, -, hchannel, hmessage⟩ := hsame.row_origin hrow
        rw [← hchannel, ← hmessage]
        exact hfree row₀ hrow₀
  · exact ht.insertMovie (KeyedTable.find?_freshKey _) hrecorded hfree

theorem Linked.reconcileBoundary (ht : t.Linked) {messageId : ℕ} :
    (t.reconcileBoundary parser channelId messageId).Linked := by
  unfold ArchiveTables.reconcileBoundary
  split
  · exact ht
  · exact ht.of_samePlaces samePlaces_revalidateMovie

/-- **Indexing keeps the links.** -/
theorem Linked.indexStep (ht : t.Linked)
    (hrecorded : (t.snapshot? channelId message.messageId).isSome) {t' : ArchiveTables}
    (h : IndexStep parser t channelId message t') : t'.Linked := by
  cases h with
  | posterInvalid movie hposter => exact ht.of_samePlaces samePlaces_invalidatePoster
  | posterValid movie group hposter hgroup =>
      exact (ht.of_samePlaces samePlaces_setPoster).of_samePlaces samePlaces_revalidateMovie
  | qualityInvalid row movie f hf hposter hrow hmovie =>
      have hplace : ∀ row, rowPlace (f row) = rowPlace row := fun row => by
        rw [rowPlace, hf.movieId, hf.archiveChannelId, hf.archiveMessageId, rowPlace]
      exact (ht.of_samePlaces (samePlaces_updateQuality hplace)).of_samePlaces samePlaces_setStatus
  | qualityValid row movie parsed hposter hrow hmovie hparsed =>
      exact (ht.of_samePlaces samePlaces_setQualityColumns).of_samePlaces samePlaces_revalidateMovie
  | boundary hposter hrow => exact ht.reconcileBoundary
  | newPoster group hposter hrow hgroup =>
      rw [← posterMessageId_of_parsePoster hgroup] at hposter hrow hrecorded
      have hadded := ht.addPoster hrecorded hrow
      rw [upsertPoster_eq hposter]
      split
      · exact hadded.of_samePlaces samePlaces_revalidateMovie
      · exact hadded
  | candidateIgnored hposter hrow hkind hquality hignored => exact ht
  | candidateAccepted movie parsed hposter hrow hmovie hparsed =>
      obtain ⟨hmem, hchannel, hlt, -⟩ := movieBefore?_eq_some hmovie
      obtain ⟨group, -, hfound⟩ := Option.bind_eq_some_iff.1 hparsed
      have hid : parsed.messageId = message.messageId := by simpa using List.find?_some hfound
      rw [← hid] at hposter hrecorded hlt
      exact (ht.upsertQualityRow (KeyedTable.find?_of_mem hmem) hchannel hlt hrecorded
        hposter).of_samePlaces samePlaces_revalidateMovie

/-- Revalidating a movie of backed tables. -/
theorem Backed.revalidateMovie (h : t.Backed) (ht : t.Linked) {movie : Movie}
    (hmovie : movie ∈ t.movies) :
    (t.revalidateMovie parser movie).1.Backed := by
  refine backed_revalidateMovie (fun row hrow hid => ?_) fun row hrow _ => h row hrow
  obtain ⟨owner, howner, hchannel, -⟩ := ht.rowMovie row hrow
  rw [hid, KeyedTable.find?_of_mem hmovie] at howner
  cases howner
  exact hchannel.symm

theorem Backed.reconcileBoundary (h : t.Backed) (ht : t.Linked) {messageId : ℕ} :
    (t.reconcileBoundary parser channelId messageId).Backed := by
  unfold ArchiveTables.reconcileBoundary
  split
  · exact h
  · next movie hmovie => exact h.revalidateMovie ht (movieBefore?_eq_some hmovie).1

omit [UnicodeData] in
theorem qualities_addPoster {group : ParsedMovieGroup} :
    (t.addPoster channelId group).qualities = t.qualities ∧
      (t.addPoster channelId group).snapshots = t.snapshots := by
  unfold addPoster
  split
  · unfold closePending
    split <;> exact ⟨rfl, rfl⟩
  · exact ⟨rfl, rfl⟩

omit [UnicodeData] in
/-- The predecessor of a new poster is still there, in its place. -/
theorem find?_addPoster {group : ParsedMovieGroup} {movie : Movie}
    (hmovie : movie ∈ t.movies) :
    ∃ movie', (t.addPoster channelId group).movies.find? movie.id = some movie' ∧
      movie'.archiveChannelId = movie.archiveChannelId ∧
        movie'.posterMessageId = movie.posterMessageId := by
  have hinsert : ∀ {t₁ : ArchiveTables}, SamePlaces t t₁ →
      ∃ movie', (t₁.movies.insert (newMovie t₁.movies.freshKey channelId group)).find? movie.id =
        some movie' ∧ movie'.archiveChannelId = movie.archiveChannelId ∧
          movie'.posterMessageId = movie.posterMessageId := by
    intro t₁ hsame
    obtain ⟨movie', hmovie', hplace⟩ := hsame.find?_movie (KeyedTable.find?_of_mem hmovie)
    have hlt := KeyedTable.lt_freshKey (KeyedTable.mem_of_find? hmovie')
    rw [KeyedTable.key_of_find? hmovie'] at hlt
    refine ⟨movie', ?_, hplace⟩
    rw [KeyedTable.find?_insert (KeyedTable.find?_freshKey t₁.movies), if_neg, hmovie']
    exact fun hid => hlt.ne' hid
  unfold addPoster
  split
  · exact hinsert samePlaces_closePending
  · exact hinsert .refl

/-- **Indexing backs the rows**, the rows at the message included. -/
theorem BackedExcept.indexStep (h : t.BackedExcept channelId message.messageId) (ht : t.Linked)
    (hkeys : t.UniqueKeys) (hrecorded : (t.snapshot? channelId message.messageId).isSome)
    {t' : ArchiveTables} (hstep : IndexStep parser t channelId message t') : t'.Backed := by
  -- rows at the message of a poster are excluded by the links
  have of_poster : ∀ movie, t.posterMovie? channelId message.messageId = some movie → t.Backed := by
    intro movie hposter
    obtain ⟨hmem, hchannel, hid⟩ := posterMovie?_eq_some hposter
    refine h.backed fun row hrow hrow_channel hrow_id => ?_
    exact ht.disjoint row hrow movie hmem (hchannel.trans hrow_channel.symm)
      (hid.trans hrow_id.symm)
  cases hstep with
  | posterInvalid movie hposter => exact (of_poster movie hposter).of_eq rfl rfl
  | posterValid movie group hposter hgroup =>
      obtain ⟨hmem, -⟩ := posterMovie?_eq_some hposter
      have hset : (t.updateMovie movie.id (setPoster group)).Linked :=
        ht.of_samePlaces samePlaces_setPoster
      have hbacked : (t.updateMovie movie.id (setPoster group)).Backed :=
        (of_poster movie hposter).of_eq rfl rfl
      exact hbacked.revalidateMovie hset (mem_updateMovie hmem)
  | qualityInvalid row movie f hf hposter hrow hmovie =>
      obtain ⟨hmem, hchannel, hid⟩ := attachedQuality?_eq_some hrow
      have hset : (t.updateQuality row.id f hf.id).Backed :=
        h.setAside hf fun row' hrow' hchannel' hid' =>
          hkeys.message row' hrow' row hmem (hchannel'.trans hchannel.symm) (hid'.trans hid.symm)
      exact hset.of_eq rfl rfl
  | qualityValid row movie parsed hposter hrow hmovie hparsed =>
      obtain ⟨hmem, hchannel, hid⟩ := attachedQuality?_eq_some hrow
      have hset : (t.updateQuality row.id (setQualityColumns parsed)).Linked :=
        ht.of_samePlaces samePlaces_setQualityColumns
      obtain ⟨hmovie_mem, hmovie_id⟩ := KeyedTable.find?_eq_some.1 hmovie
      refine backed_revalidateMovie (fun row' hrow' hid' => ?_) fun row' hrow' hne hconfidence => ?_
      · obtain ⟨owner, howner, howner_channel, -⟩ := hset.rowMovie row' hrow'
        have howner : t.movies.find? row'.movieId = some owner := howner
        rw [hid', hmovie_id, hmovie] at howner
        cases howner
        exact howner_channel.symm
      · -- rows of other movies are not at the message
        rcases mem_updateQuality hmem hrow' with ⟨hrow', hne'⟩ | rfl
        · refine h row' hrow' (fun hplace => hne' ?_) hconfidence
          rw [hkeys.message row' hrow' row hmem (hplace.1.trans hchannel.symm)
            (hplace.2.trans hid.symm)]
        · exact absurd hmovie_id.symm hne
  | boundary hposter hrow =>
      exact (h.backed (attachedQuality?_eq_none hrow)).reconcileBoundary ht
  | newPoster group hposter hrow hgroup =>
      have hbacked := h.backed (attachedQuality?_eq_none hrow)
      rw [← posterMessageId_of_parsePoster hgroup] at hposter hrow hrecorded
      have hadded : (t.addPoster channelId group).Backed :=
        hbacked.of_eq qualities_addPoster.2 qualities_addPoster.1
      rw [upsertPoster_eq hposter]
      split
      · next previous hprevious =>
          refine backed_revalidateMovie (fun row hrow' hid => ?_) fun row hrow' _ =>
            hadded row hrow'
          obtain ⟨owner, howner, hchannel, -⟩ := (ht.addPoster hrecorded hrow).rowMovie row hrow'
          have hkept : ∃ movie', (t.addPoster channelId group).movies.find? previous.id =
              some movie' ∧
                movie'.archiveChannelId = previous.archiveChannelId ∧
                  movie'.posterMessageId = previous.posterMessageId :=
            find?_addPoster (movieBefore?_eq_some hprevious).1
          obtain ⟨movie', hmovie', hchannel', -⟩ := hkept
          rw [hid, hmovie'] at howner
          cases howner
          rw [← hchannel, hchannel']
      · exact hadded
  | candidateIgnored hposter hrow hkind hquality hignored =>
      exact h.backed (attachedQuality?_eq_none hrow)
  | candidateAccepted movie parsed hposter hrow hmovie hparsed =>
      have hbacked := h.backed (attachedQuality?_eq_none hrow)
      obtain ⟨hmem, hchannel, -⟩ := movieBefore?_eq_some hmovie
      refine backed_revalidateMovie (fun row' hrow' hid => ?_) fun row' hrow' hne hconfidence => ?_
      · rcases mem_upsertQualityRow hrow' with hrow' | ⟨-, hrow_channel, -⟩
        · obtain ⟨owner, howner, howner_channel, -⟩ := ht.rowMovie row' hrow'
          rw [hid, KeyedTable.find?_of_mem hmem] at howner
          cases howner
          exact howner_channel.symm
        · exact hrow_channel.trans hchannel.symm
      · rcases mem_upsertQualityRow hrow' with hrow' | ⟨hrow_movie, -⟩
        · obtain ⟨s, hs, hshows⟩ := hbacked row' hrow' hconfidence
          exact ⟨s, by rw [snapshot?, snapshots_upsertQualityRow]; exact hs, hshows⟩
        · exact absurd hrow_movie hne

/-! ### Conflicts -/

theorem Linked.invalidateSnapshotConflict (ht : t.Linked) {messageId : ℕ} :
    (t.invalidateSnapshotConflict parser channelId messageId).Linked := by
  unfold ArchiveTables.invalidateSnapshotConflict
  split
  · exact ht.of_samePlaces (samePlaces_updateMovie fun _ => rfl)
  · split
    · next row movie _ _ =>
        have hrow :
            SamePlaces t (t.updateQuality row.id fun r => { r with parserConfidence := 0 }) :=
          samePlaces_updateQuality fun _ => rfl
        exact (ht.of_samePlaces hrow).of_samePlaces samePlaces_setStatus
    · exact ht.reconcileBoundary

/-- **A conflict leaves the rows backed**: the row at its message is set aside. -/
theorem BackedExcept.invalidateSnapshotConflict {messageId : ℕ}
    (h : t.BackedExcept channelId messageId)
    (ht : t.Linked) (hkeys : t.UniqueKeys) :
    (t.invalidateSnapshotConflict parser channelId messageId).Backed := by
  unfold ArchiveTables.invalidateSnapshotConflict
  split
  · next movie hposter =>
      obtain ⟨hmem, hchannel, hid⟩ := posterMovie?_eq_some hposter
      have hbacked : t.Backed := h.backed fun row hrow hrow_channel hrow_id =>
        ht.disjoint row hrow movie hmem (hchannel.trans hrow_channel.symm) (hid.trans hrow_id.symm)
      exact hbacked.of_eq rfl rfl
  · cases hrow : t.attachedQuality? channelId messageId with
    | none =>
        have hbacked := h.backed (attachedQuality?_eq_none hrow)
        simp only
        exact hbacked.reconcileBoundary ht
    | some row =>
        obtain ⟨hmem, hchannel, hid⟩ := attachedQuality?_eq_some hrow
        obtain ⟨movie, hmovie, -⟩ := ht.rowMovie row hmem
        simp only [attachedMovie?, hrow, Option.bind_some, hmovie]
        have hset : (t.updateQuality row.id fun r => { r with parserConfidence := 0 }).Backed :=
          h.setAside (f := fun r => { r with parserConfidence := 0 })
            ⟨fun _ => rfl, fun _ => rfl, fun _ => rfl, fun _ => rfl, fun _ => rfl, fun _ => rfl⟩
            fun row' hrow' hchannel' hid' => hkeys.message row' hrow' row hmem
              (hchannel'.trans hchannel.symm) (hid'.trans hid.symm)
        exact hset.of_eq rfl rfl

end Index

/-! ### The invariant -/

/-- The links, the unique constraints, and rows backed by their snapshots. -/
structure Sound (t : ArchiveTables) : Prop extends t.Linked, t.UniqueKeys where
  backed : t.Backed

theorem empty_sound : empty.Sound := by
  refine ⟨⟨?_, ?_, ?_, ?_⟩, ⟨?_, ?_, ?_⟩, ?_⟩
  all_goals exact fun _ h => by cases h

/-- The constraints do not read the snapshots. -/
theorem UniqueKeys.of_eq (h : t.UniqueKeys) (hmovies : t'.movies = t.movies)
    (hqualities : t'.qualities = t.qualities) : t'.UniqueKeys := by
  obtain ⟨hposter, hmessage, hquality⟩ := h
  exact ⟨hmovies ▸ hposter, hqualities ▸ hmessage, hqualities ▸ hquality⟩

/-- **A call keeps the invariant.** -/
theorem Sound.call [UnicodeData] {parser : ArchiveParser} (ht : t.Sound) (c : ArchiveCall) :
    (t.call parser c).Sound := by
  have hstep : CallStep parser t c (t.call parser c) := ht.toLinked.callStep c
  generalize t.call parser c = t' at hstep
  cases hstep with
  | unchanged => exact ht
  | conflicted s hs _ hkeys =>
      have hmarked : (t.markConflict c.channelId c.message.messageId).Linked :=
        ht.toLinked.of_samePlaces samePlaces_updateSnapshot
      have hbacked : (t.markConflict c.channelId c.message.messageId).BackedExcept c.channelId
          c.message.messageId := ht.backed.updateSnapshot
      exact ⟨hmarked.invalidateSnapshotConflict, hkeys,
        hbacked.invalidateSnapshotConflict hmarked (ht.toUniqueKeys.of_eq rfl rfl)⟩
  | indexed _ _ _ h hkeys =>
      have hrecorded : ((t.recordMessage c.channelId c.message).snapshot? c.channelId
          c.message.messageId).isSome := by
        rw [snapshot?_recordMessage, if_pos rfl]
        rfl
      have hlinked : (t.recordMessage c.channelId c.message).Linked := ht.toLinked.recordMessage
      exact ⟨hlinked.indexStep hrecorded h, hkeys, ht.backed.recordMessage.indexStep hlinked
        (ht.toUniqueKeys.of_eq movies_recordMessage qualities_recordMessage) hrecorded h⟩

end ArchiveTables

end CineGate
