/-
**The tables of a channel that holds a stream.**

The snapshots of a channel can be exactly the messages of a stream, as they were first seen.  Its
ranges are then parts of the stream, a row that a newer message takes over changes as the dictionary
of a group does, and revalidation finds every row accepted as it is stored.

* `ArchiveTables.commit_eq_ok`, `ArchiveTables.fitsColumns_call` — columns and constraints;
* `ArchiveTables.fitsColumns_upsertQualityRow` — what is written fits when its values do;
* `ArchiveTables.HoldsStream` — the channel holds a stream;
* `ArchiveTables.movieItems`, `ArchiveTables.movieItems_upsertQualityRow` — the rows of a movie as
  accepted qualities;
* `ArchiveTables.revalidateMovie_eq` — what revalidation does when the rows are in step.
-/

import CineGate.ColumnBounds
import CineGate.MovieEvidence

set_option relaxedAutoImplicit false
set_option autoImplicit false

namespace CineGate

namespace ArchiveTables

variable {t t' : ArchiveTables} {channelId : ℤ} {movie : Movie}

/-! ### Committing -/

/-- Rows that differ in a unique key have different keys. -/
theorem nodup_map_rows {ρ κ κ' : Type*} [LinearOrder κ] {key : ρ → κ} {f : ρ → κ'}
    (table : KeyedTable ρ key) (h : ∀ r ∈ table, ∀ r' ∈ table, f r = f r' → r = r') :
    (table.rows.map f).Nodup := by
  have hrows : table.rows.Nodup := table.ordered.imp fun hlt heq => absurd (heq ▸ hlt) (lt_irrefl _)
  exact List.Nodup.map_on h hrows

/-- Rows that fit and do not clash are committed. -/
theorem commit_eq_ok {α : Type} {result : α} (hfits : t.fitsColumns) (hkeys : t.UniqueKeys) :
    t.commit result = .ok (t, result) := by
  have hposter : t.uqMoviesArchivePoster := by
    refine decide_eq_true (nodup_map_rows t.movies fun movie hmovie movie' hmovie' h => ?_)
    obtain ⟨hchannel, hid⟩ := Prod.mk.inj h
    exact hkeys.poster movie hmovie movie' hmovie' hchannel hid
  have hmessage : t.uqMovieQualitiesArchiveMessage := by
    refine decide_eq_true (nodup_map_rows t.qualities fun row hrow row' hrow' h => ?_)
    obtain ⟨hchannel, hid⟩ := Prod.mk.inj h
    exact hkeys.message row hrow row' hrow' hchannel hid
  have hquality : t.uqMovieQualitiesMovieQuality := by
    refine decide_eq_true (nodup_map_rows t.qualities fun row hrow row' hrow' h => ?_)
    obtain ⟨hmovie, hquality⟩ := Prod.mk.inj h
    exact hkeys.quality row hrow row' hrow' hmovie hquality
  simp [commit, hfits, hposter, hmessage, hquality]

theorem fitsColumns_iff : t.fitsColumns ↔ (∀ s ∈ t.snapshots, s.fits) ∧
    (∀ movie ∈ t.movies, movie.fits) ∧ ∀ row ∈ t.qualities, row.fits := by
  simp only [fitsColumns, Bool.and_eq_true, List.all_eq_true, and_assoc]
  rfl

/-! ### Rows that fit -/

theorem fitsColumns_updateMovie {movieId : ℕ} {f : Movie → Movie}
    {hf : ∀ movie, (f movie).id = movie.id}
    (h : t.fitsColumns) (hmovie : ∀ movie : Movie, movie.fits → (f movie).fits) :
    (t.updateMovie movieId f hf).fitsColumns := by
  obtain ⟨hsnapshots, hmovies, hqualities⟩ := fitsColumns_iff.1 h
  refine fitsColumns_iff.2 ⟨hsnapshots, fun movie' hmovie' => ?_, hqualities⟩
  have hmovie' : movie' ∈ t.movies.modifyAt movieId f hf := hmovie'
  rcases KeyedTable.mem_modifyAt.1 hmovie' with ⟨hmem, -⟩ | ⟨movie, hmem, -, rfl⟩
  · exact hmovies movie' hmem
  · exact hmovie movie (hmovies movie hmem)

theorem fitsColumns_updateQuality {rowId : ℕ} {f : MovieQuality → MovieQuality}
    {hf : ∀ row, (f row).id = row.id} (h : t.fitsColumns)
    (hrow : ∀ row : MovieQuality, row.fits → (f row).fits) :
    (t.updateQuality rowId f hf).fitsColumns := by
  obtain ⟨hsnapshots, hmovies, hqualities⟩ := fitsColumns_iff.1 h
  refine fitsColumns_iff.2 ⟨hsnapshots, hmovies, fun row' hrow' => ?_⟩
  have hrow' : row' ∈ t.qualities.modifyAt rowId f hf := hrow'
  rcases KeyedTable.mem_modifyAt.1 hrow' with ⟨hmem, -⟩ | ⟨row, hmem, -, rfl⟩
  · exact hqualities row' hmem
  · exact hrow row (hqualities row hmem)

/-- The row that `ON CONFLICT` writes fits when the item does. -/
theorem fitsColumns_upsertQualityRow {movieId : ℕ} {item : ParsedQuality} (h : t.fitsColumns)
    (hitem : (newQuality 0 0 0 item).fits) :
    (t.upsertQualityRow movieId channelId item).1.fitsColumns := by
  unfold upsertQualityRow
  split
  · obtain ⟨hsnapshots, hmovies, hqualities⟩ := fitsColumns_iff.1 h
    refine fitsColumns_iff.2 ⟨hsnapshots, hmovies, fun row hrow => ?_⟩
    rcases KeyedTable.mem_of_mem_insert hrow with rfl | hmem
    · exact hitem
    · exact hqualities row hmem
  · split
    · exact fitsColumns_updateQuality h fun row _ => hitem
    · exact h

/-- What has been committed fits. -/
theorem fitsColumns_call [UnicodeData] {parser : ArchiveParser} (h : t.fitsColumns)
    (c : ArchiveCall) : (t.call parser c).fitsColumns := by
  -- a commit checks the columns, and a refused transaction leaves the tables
  have hcommit : ∀ {u u' : ArchiveTables} {result result' : ArchiveIndexResult},
      u.commit result = .ok (u', result') → u'.fitsColumns := by
    intro u u' result result' hok
    unfold commit at hok
    split at hok
    · cases hok
    · next hfits =>
        split at hok
        · cases hok
          simpa using hfits
        · cases hok
  have htransaction : ∀ {configured channelId message reconcile expectedVersion index u' result},
      indexTransaction parser configured t channelId message reconcile expectedVersion index =
        .ok (u', result) → u'.fitsColumns := by
    intro configured channelId message reconcile expectedVersion index u' result hok
    unfold indexTransaction at hok
    split at hok
    · cases hok
    · split at hok
      · cases hok
        exact h
      · split at hok
        · cases hok
        · dsimp only at hok
          split at hok
          · split at hok
            · cases hok
            · exact hcommit hok
          · exact hcommit hok
  unfold call
  dsimp only
  split
  · next u' result hok =>
      cases c with
      | ingest configured channelId message => exact htransaction hok
      | reconcileEdit configured channelId message expectedVersion => exact htransaction hok
  · exact h

/-! ### One channel -/

/-- The snapshots of a channel, in message order. -/
def channelSnapshots (t : ArchiveTables) (channelId : ℤ) : List ArchiveMessageSnapshot :=
  t.snapshots.rows.filter fun s => s.archiveChannelId = channelId

/-- The movies of a channel, in the order of their rows. -/
def channelMovies (t : ArchiveTables) (channelId : ℤ) : List Movie :=
  t.movies.rows.filter fun movie => movie.archiveChannelId = channelId

theorem mem_channelSnapshots {s : ArchiveMessageSnapshot} :
    s ∈ t.channelSnapshots channelId ↔ s ∈ t.snapshots ∧ s.archiveChannelId = channelId := by
  simp [channelSnapshots]

theorem mem_channelMovies :
    movie ∈ t.channelMovies channelId ↔ movie ∈ t.movies ∧ movie.archiveChannelId = channelId := by
  simp [channelMovies]

theorem mem_movieQualities {row : MovieQuality} {movieId : ℕ} :
    row ∈ t.movieQualities movieId ↔ row ∈ t.qualities ∧ row.movieId = movieId := by
  simp [movieQualities]

/-- The recorded messages of a channel are `ms`. -/
def HoldsStream (t : ArchiveTables) (channelId : ℤ) (ms : List ArchiveMessage) : Prop :=
  t.channelSnapshots channelId = ms.map (newSnapshot channelId)

variable {ms : List ArchiveMessage} {message : ArchiveMessage}

theorem HoldsStream.snapshot_of_mem (h : t.HoldsStream channelId ms) {s : ArchiveMessageSnapshot}
    (hs : s ∈ t.snapshots) (hchannel : s.archiveChannelId = channelId) :
    ∃ m ∈ ms, newSnapshot channelId m = s :=
  List.mem_map.1 (h ▸ mem_channelSnapshots.2 ⟨hs, hchannel⟩)

theorem HoldsStream.snapshot?_eq_none (h : t.HoldsStream channelId ms)
    (hnew : ∀ m ∈ ms, m.messageId ≠ message.messageId) :
    t.snapshot? channelId message.messageId = none := by
  refine KeyedTable.find?_eq_none.2 fun s hs hkey => ?_
  obtain ⟨hchannel, hid⟩ : s.archiveChannelId = channelId ∧ s.messageId = message.messageId :=
    Prod.ext_iff.1 (toLex.injective hkey)
  obtain ⟨m, hm, rfl⟩ := h.snapshot_of_mem hs hchannel
  exact hnew m hm hid

theorem HoldsStream.isSome_snapshot? (h : t.HoldsStream channelId ms) {m : ArchiveMessage}
    (hm : m ∈ ms) :
    (t.snapshot? channelId m.messageId).isSome := by
  have hmem : newSnapshot channelId m ∈ t.snapshots :=
    (mem_channelSnapshots.1 (h ▸ List.mem_map_of_mem hm)).1
  have hfind : t.snapshot? channelId m.messageId = some (newSnapshot channelId m) :=
    KeyedTable.find?_of_mem hmem
  rw [hfind]
  rfl

/-- A newer message is recorded behind the others. -/
theorem HoldsStream.recordMessage (h : t.HoldsStream channelId ms)
    (hnewer : ∀ m ∈ ms, m.messageId < message.messageId) :
    (t.recordMessage channelId message).HoldsStream channelId (ms ++ [message]) := by
  have hnone : t.snapshot? channelId message.messageId = none :=
    h.snapshot?_eq_none fun m hm => (hnewer m hm).ne
  have hnew : ∀ s ∈ t.snapshots, s.key ≠ (newSnapshot channelId message).key :=
    KeyedTable.find?_eq_none.1 hnone
  rw [HoldsStream, List.map_append, ← h, ArchiveTables.recordMessage, hnone]
  refine KeyedTable.filter_insertRow_of_lt t.snapshots.ordered hnew (by simp [newSnapshot])
    fun s hs hchannel => ?_
  have hchannel : s.archiveChannelId = channelId := by simpa using hchannel
  obtain ⟨m, hm, rfl⟩ := h.snapshot_of_mem hs hchannel
  exact Prod.Lex.toLex_lt_toLex.2 (.inr ⟨rfl, hnewer m hm⟩)

theorem HoldsStream.of_eq (h : t.HoldsStream channelId ms)
    (hsnapshots : t'.snapshots = t.snapshots) :
    t'.HoldsStream channelId ms := by
  rw [HoldsStream, channelSnapshots, hsnapshots]
  exact h

theorem HoldsStream.boundedIn (h : t.HoldsStream channelId ms)
    (hbound : ∀ m ∈ ms, m.messageId < bigintMax) : t.BoundedIn channelId := by
  intro s hs hchannel
  obtain ⟨m, hm, rfl⟩ := h.snapshot_of_mem hs hchannel
  exact hbound m hm

/-- The messages of a range are those of the stream that lie in it. -/
theorem HoldsStream.rangeMessages_eq (h : t.HoldsStream channelId ms)
    (hchannel : movie.archiveChannelId = channelId) :
    t.rangeMessages movie = ms.filter fun m => t.inRange movie (newSnapshot channelId m) := by
  have hrange : t.rangeSnapshots movie =
      (t.channelSnapshots channelId).filter fun s => t.inRange movie s := by
    rw [rangeSnapshots, channelSnapshots, List.filter_filter]
    refine List.filter_congr fun s _ => ?_
    rw [inRange, hchannel]
    by_cases hs : s.archiveChannelId = channelId
    · simp [hs]
    · simp [hs]
  rw [rangeMessages, hrange, h, List.filter_map, List.map_map]
  exact List.map_id _

/-- **The messages of a window**: those from its poster on that the range covers. -/
theorem HoldsStream.rangeMessages_eq_window {pre rest seg : List ArchiveMessage}
    {m₀ : ArchiveMessage} (h : t.HoldsStream channelId (pre ++ m₀ :: (seg ++ rest)))
    (hchannel : movie.archiveChannelId = channelId) (hposter : movie.posterMessageId = m₀.messageId)
    (hpre : ∀ m ∈ pre, m.messageId < m₀.messageId)
    (hseg : ∀ m ∈ m₀ :: seg, t.Covers movie channelId m.messageId)
    (hrest : ∀ m ∈ rest, ¬ t.Covers movie channelId m.messageId) :
    t.rangeMessages movie = m₀ :: seg := by
  have hcovers : ∀ m : ArchiveMessage, t.inRange movie (newSnapshot channelId m) = true ↔
      t.Covers movie channelId m.messageId := fun _ => inRange_iff
  have hbefore : ∀ m ∈ pre, ¬ t.Covers movie channelId m.messageId := fun m hm hm' => by
    have hlt := hpre m hm
    have hle := hm'.2.1
    omega
  rw [h.rangeMessages_eq hchannel, List.filter_append,
    List.filter_eq_nil_iff.2 fun m hm hm' => hbefore m hm ((hcovers m).1 hm'), List.nil_append,
    ← List.cons_append, List.filter_append,
    List.filter_eq_self.2 fun m hm => (hcovers m).2 (hseg m hm),
    List.filter_eq_nil_iff.2 fun m hm hm' => hrest m hm ((hcovers m).1 hm'), List.append_nil]

theorem HoldsStream.unconflicted (h : t.HoldsStream channelId ms)
    (hchannel : movie.archiveChannelId = channelId) :
    ∀ s ∈ t.rangeSnapshots movie, s.conflicted = false := by
  intro s hs
  obtain ⟨hs, hrange⟩ := mem_rangeSnapshots.1 hs
  obtain ⟨m, -, rfl⟩ := h.snapshot_of_mem hs ((inRange_iff.1 hrange).1.trans hchannel)
  rfl

/-! ### Rows as accepted qualities -/

/-- The columns of a row that the parser fills. -/
def parsedColumns (row : MovieQuality) : ParsedQuality where
  messageId := row.archiveMessageId
  quality := row.quality
  rawCaption := row.rawCaption
  rawTitle := row.extractedTitle
  normalizedTitle := row.normalizedTitle
  year := row.extractedYear
  confidence := row.parserConfidence

/-- The rows of a movie as the qualities they were made from. -/
def movieItems (t : ArchiveTables) (movieId : ℕ) : List ParsedQuality :=
  (t.movieQualities movieId).map parsedColumns

theorem mem_movieItems {movieId : ℕ} {item : ParsedQuality} :
    item ∈ t.movieItems movieId ↔
      ∃ row ∈ t.qualities, row.movieId = movieId ∧ parsedColumns row = item := by
  simp [movieItems, mem_movieQualities, and_assoc]

theorem movieQualities_updateQuality {rowId movieId : ℕ} {f : MovieQuality → MovieQuality}
    {hf : ∀ row, (f row).id = row.id} (hmovie : ∀ row, (f row).movieId = row.movieId) :
    (t.updateQuality rowId f hf).movieQualities movieId =
      (t.movieQualities movieId).map fun row => if row.id = rowId then f row else row := by
  have hrows : (t.updateQuality rowId f hf).qualities.rows =
      t.qualities.rows.map fun row => if row.id = rowId then f row else row := rfl
  rw [movieQualities, movieQualities, hrows, List.filter_map]
  congr 1
  refine List.filter_congr fun row _ => ?_
  simp only [Function.comp_apply]
  split
  · rw [hmovie]
  · rfl

/-- A new poster clashes with no other. -/
theorem UniqueKeys.insertMovie (h : t.UniqueKeys) {new : Movie}
    (hposter : t.posterMovie? new.archiveChannelId new.posterMessageId = none) :
    (t.insertMovie new).UniqueKeys := by
  have hfree := posterMovie?_eq_none hposter
  refine ⟨fun a ha b hb hchannel hid => ?_, h.message, h.quality⟩
  rcases KeyedTable.mem_of_mem_insert ha with hnew | hold
  · rcases KeyedTable.mem_of_mem_insert hb with hnew' | hold'
    · rw [hnew, hnew']
    · rw [hnew] at hchannel hid
      exact absurd hid.symm (hfree b hold' hchannel.symm)
  · rcases KeyedTable.mem_of_mem_insert hb with hnew' | hold'
    · rw [hnew'] at hchannel hid
      exact absurd hid (hfree a hold hchannel)
    · exact h.poster a hold b hold' hchannel hid

section Upsert

variable {movieId : ℕ} {item : ParsedQuality}

/-- The row that a newer message takes over. -/
def takeOver (channelId : ℤ) (item : ParsedQuality) (row : MovieQuality) : MovieQuality :=
  { row with
    archiveChannelId := channelId
    archiveMessageId := item.messageId
    rawCaption := item.rawCaption
    extractedTitle := item.rawTitle
    normalizedTitle := item.normalizedTitle
    extractedYear := item.year
    parserConfidence := item.confidence }

theorem id_takeOver (row : MovieQuality) : (takeOver channelId item row).id = row.id := rfl

theorem upsertQualityRow_cases (channelId : ℤ)
    (hnewer : ∀ row ∈ t.qualities, row.movieId = movieId → row.quality = item.quality →
      row.archiveMessageId < item.messageId) :
    (∀ row ∈ t.qualities, ¬ (row.movieId = movieId ∧ row.quality = item.quality)) ∧
        (t.upsertQualityRow movieId channelId item).1 = { t with
          qualities :=
            t.qualities.insert (newQuality t.qualities.freshKey movieId channelId item) } ∨
      ∃ row ∈ t.qualities, row.movieId = movieId ∧ row.quality = item.quality ∧
        (t.upsertQualityRow movieId channelId item).1 =
          t.updateQuality row.id (takeOver channelId item) id_takeOver := by
  unfold upsertQualityRow
  split
  · next hnone =>
      refine .inl ⟨fun row hrow hsame => ?_, rfl⟩
      have hnot := List.find?_eq_none.1 hnone row hrow
      simp [hsame] at hnot
  · next row hfound =>
      have hrow : row ∈ t.qualities := List.mem_of_find?_eq_some hfound
      obtain ⟨hmovie, hquality⟩ : row.movieId = movieId ∧ row.quality = item.quality := by
        simpa using List.find?_some hfound
      rw [if_pos (hnewer row hrow hmovie hquality)]
      exact .inr ⟨row, hrow, hmovie, hquality, rfl⟩

/-- **What `ON CONFLICT` leaves**, for a message newer than the rows of the movie: one row made from
the message, and the rows that do not hold its resolution. -/
theorem upsertQualityRow_rows (hkeys : t.UniqueKeys)
    (hnewer : ∀ row ∈ t.qualities, row.movieId = movieId → row.quality = item.quality →
      row.archiveMessageId < item.messageId) :
    ∃ row', row'.movieId = movieId ∧ row'.archiveChannelId = channelId ∧ parsedColumns row' = item ∧
      ∀ row, row ∈ (t.upsertQualityRow movieId channelId item).1.qualities ↔
        row = row' ∨
          row ∈ t.qualities ∧ ¬ (row.movieId = movieId ∧ row.quality = item.quality) := by
  rcases upsertQualityRow_cases channelId hnewer with ⟨hnone, hupsert⟩ |
    ⟨row₀, hmem₀, hmovie₀, hquality₀, hupsert⟩
  · refine ⟨newQuality t.qualities.freshKey movieId channelId item, rfl, rfl, rfl, fun row => ?_⟩
    have hfresh : t.qualities.find? (newQuality t.qualities.freshKey movieId channelId item).id =
        none := KeyedTable.find?_freshKey _
    rw [hupsert]
    refine (KeyedTable.mem_insert hfresh).trans (or_congr_right ?_)
    exact (and_iff_left_of_imp fun hrow => hnone row hrow).symm
  · refine ⟨takeOver channelId item row₀, hmovie₀, rfl, ?_, fun row => ?_⟩
    · simp [parsedColumns, takeOver, hquality₀]
    · rw [hupsert]
      constructor
      · intro hrow
        rcases mem_updateQuality hmem₀ hrow with ⟨hrow, hne⟩ | rfl
        · refine .inr ⟨hrow, fun hsame => hne ?_⟩
          rw [hkeys.quality row hrow row₀ hmem₀ (hsame.1.trans hmovie₀.symm)
            (hsame.2.trans hquality₀.symm)]
        · exact .inl rfl
      · rintro (rfl | ⟨hrow, hother⟩)
        · exact mem_updateQuality_self hmem₀
        · refine mem_updateQuality_of_ne hrow fun hid => hother ?_
          rw [t.qualities.ext_key hrow hmem₀ hid]
          exact ⟨hmovie₀, hquality₀⟩

/-- The new row clashes with no other. -/
theorem UniqueKeys.upsertQualityRow (hkeys : t.UniqueKeys)
    (hnewer : ∀ row ∈ t.qualities, row.movieId = movieId → row.quality = item.quality →
      row.archiveMessageId < item.messageId)
    (hunattached : ∀ row ∈ t.qualities, row.archiveChannelId = channelId →
      row.archiveMessageId ≠ item.messageId) :
    (t.upsertQualityRow movieId channelId item).1.UniqueKeys := by
  obtain ⟨row', hmovie', hchannel', hitem', hrows⟩ :
      ∃ row', row'.movieId = movieId ∧ row'.archiveChannelId = channelId ∧
        parsedColumns row' = item ∧
        _ := upsertQualityRow_rows hkeys hnewer
  have hmessage' : row'.archiveMessageId = item.messageId := congrArg ParsedQuality.messageId hitem'
  have hquality' : row'.quality = item.quality := congrArg ParsedQuality.quality hitem'
  constructor
  · rw [movies_upsertQualityRow]
    exact hkeys.poster
  · intro row hrow other hother hchannel hmessage
    rcases (hrows row).1 hrow with rfl | ⟨hrow, -⟩
    · rcases (hrows other).1 hother with rfl | ⟨hother, -⟩
      · rfl
      · exact absurd (hmessage.symm.trans hmessage')
          (hunattached other hother (hchannel.symm.trans hchannel'))
    · rcases (hrows other).1 hother with rfl | ⟨hother, -⟩
      · exact absurd (hmessage.trans hmessage') (hunattached row hrow (hchannel.trans hchannel'))
      · exact hkeys.message row hrow other hother hchannel hmessage
  · intro row hrow other hother hmovie hquality
    rcases (hrows row).1 hrow with rfl | ⟨hrow, hnot⟩
    · rcases (hrows other).1 hother with rfl | ⟨hother, hnot⟩
      · rfl
      · exact absurd ⟨hmovie.symm.trans hmovie', hquality.symm.trans hquality'⟩ hnot
    · rcases (hrows other).1 hother with rfl | ⟨hother, -⟩
      · exact absurd ⟨hmovie.trans hmovie', hquality.trans hquality'⟩ hnot
      · exact hkeys.quality row hrow other hother hmovie hquality

/-- The rows of the movie change as the dictionary of the group does. -/
theorem movieItems_upsertQualityRow (hkeys : t.UniqueKeys)
    (hnewer : ∀ row ∈ t.qualities, row.movieId = movieId → row.quality = item.quality →
      row.archiveMessageId < item.messageId) :
    (t.upsertQualityRow movieId channelId item).1.movieItems movieId =
      setQuality (t.movieItems movieId) item := by
  rcases upsertQualityRow_cases channelId hnewer with ⟨hnone, hupsert⟩ |
    ⟨row₀, hmem₀, hmovie₀, hquality₀, hupsert⟩
  · have hnot : ¬ (t.movieItems movieId).any fun item' => item'.quality = item.quality := by
      intro hany
      obtain ⟨item', hitem', hquality⟩ := List.any_eq_true.1 hany
      obtain ⟨row, hrow, hmovie, rfl⟩ := mem_movieItems.1 hitem'
      exact hnone row hrow ⟨hmovie, of_decide_eq_true hquality⟩
    have hrows :
        (t.qualities.insert (newQuality t.qualities.freshKey movieId channelId item)).rows =
          t.qualities.rows ++ [newQuality t.qualities.freshKey movieId channelId item] :=
      KeyedTable.rows_insert_freshKey rfl
    rw [setQuality, if_neg hnot, hupsert, movieItems, movieQualities, hrows, List.filter_append,
      List.map_append]
    simp [movieItems, movieQualities, newQuality, parsedColumns]
  · have hany : (t.movieItems movieId).any fun item' => item'.quality = item.quality :=
      List.any_eq_true.2 ⟨parsedColumns row₀, mem_movieItems.2 ⟨row₀, hmem₀, hmovie₀, rfl⟩,
        decide_eq_true hquality₀⟩
    have hmovieId : ∀ row, (takeOver channelId item row).movieId = row.movieId := fun _ => rfl
    rw [setQuality, if_pos hany, hupsert, movieItems, movieQualities_updateQuality hmovieId,
      movieItems, List.map_map, List.map_map]
    refine List.map_congr_left fun row hrow => ?_
    obtain ⟨hrow, hmovie⟩ := mem_movieQualities.1 hrow
    -- within the movie the resolution tells the rows apart
    have hsame : row.id = row₀.id ↔ row.quality = item.quality := by
      constructor
      · intro hid
        rw [t.qualities.ext_key hrow hmem₀ hid, hquality₀]
      · intro hquality
        rw [hkeys.quality row hrow row₀ hmem₀ (hmovie.trans hmovie₀.symm)
          (hquality.trans hquality₀.symm)]
    have hcolumn : (parsedColumns row).quality = row.quality := rfl
    simp only [Function.comp_apply, hcolumn, hsame]
    split
    · next hquality => simp [parsedColumns, takeOver, hquality]
    · rfl

theorem movieQualities_upsertQualityRow_of_ne {otherId : ℕ} (hne : otherId ≠ movieId)
    (hnewer : ∀ row ∈ t.qualities, row.movieId = movieId → row.quality = item.quality →
      row.archiveMessageId < item.messageId) :
    (t.upsertQualityRow movieId channelId item).1.movieQualities otherId =
      t.movieQualities otherId := by
  rcases upsertQualityRow_cases channelId hnewer with ⟨-, hupsert⟩ |
    ⟨row₀, hmem₀, hmovie₀, -, hupsert⟩
  · rw [hupsert]
    exact KeyedTable.filter_insertRow_of_neg (decide_eq_false hne.symm)
  · have hmovieId : ∀ row, (takeOver channelId item row).movieId = row.movieId := fun _ => rfl
    rw [hupsert, movieQualities_updateQuality hmovieId]
    refine (List.map_congr_left fun row hrow => if_neg fun hid => hne ?_).trans (List.map_id _)
    obtain ⟨hrow, hmovie⟩ := mem_movieQualities.1 hrow
    rw [← hmovie, t.qualities.ext_key hrow hmem₀ hid, hmovie₀]

end Upsert

/-! ### Revalidation -/

/-- A search with one possible result finds it. -/
theorem find?_of_unique {α : Type*} {l : List α} {p : α → Bool} {a : α} (hmem : a ∈ l) (ha : p a)
    (hunique : ∀ b ∈ l, p b → b = a) : l.find? p = some a := by
  cases hfind : l.find? p with
  | none => exact absurd ha (List.find?_eq_none.1 hfind a hmem)
  | some b => rw [hunique b (List.mem_of_find?_eq_some hfind) (List.find?_some hfind)]

section

variable [UnicodeData] {parser : ArchiveParser}

/-- **Revalidation changes no row** when the parser accepts what the rows of the movie hold. -/
theorem revalidateAttachedQualities_eq_self (hkeys : t.UniqueKeys)
    (hchannel : ∀ row ∈ t.qualities, row.movieId = movie.id → row.archiveChannelId = channelId)
    (haccepted : ∀ item, item ∈ t.acceptedQualities parser movie ↔ item ∈ t.movieItems movie.id) :
    t.revalidateAttachedQualities parser movie = t := by
  have hrows : ∀ row ∈ t.qualities, (if row.movieId = movie.id then
      revalidateRow (t.acceptedQualities parser movie) row else row) = row := by
    intro row hrow
    split
    · next hmovie =>
        have hitem : parsedColumns row ∈ t.acceptedQualities parser movie :=
          (haccepted _).2 (mem_movieItems.2 ⟨row, hrow, hmovie, rfl⟩)
        have hfind : (t.acceptedQualities parser movie).find?
            (fun item => item.messageId = row.archiveMessageId) = some (parsedColumns row) := by
          refine find?_of_unique hitem (decide_eq_true rfl) fun item hmem hid => ?_
          obtain ⟨row', hrow', hmovie', rfl⟩ := mem_movieItems.1 ((haccepted item).1 hmem)
          rw [hkeys.message row' hrow' row hrow
            ((hchannel row' hrow' hmovie').trans (hchannel row hrow hmovie).symm)
            (of_decide_eq_true hid)]
        rw [revalidateRow, hfind]
        simp [parsedColumns]
    · rfl
  rw [revalidateAttachedQualities, KeyedTable.modify_eq_self hrows]

omit [UnicodeData] in
theorem freshStatus_of_accepted (hconfidence : 0 < movie.parserConfidence)
    (hrows : ∀ row ∈ t.movieQualities movie.id, row.parserConfidence ≠ 0)
    (hconflict : ∀ s ∈ t.snapshotsUpTo movie (t.rangeStop movie), s.conflicted = false) :
    t.freshStatus movie = if (t.movieQualities movie.id).isEmpty then .orphan else .indexed := by
  have hrows : ((t.movieQualities movie.id).any fun row => row.parserConfidence = 0) = false := by
    rw [List.any_eq_false]
    intro row hrow
    simpa using hrows row hrow
  have hconflict : ((t.snapshotsUpTo movie (t.rangeStop movie)).any fun s => s.conflicted) =
      false := by
    rw [List.any_eq_false]
    intro s hs
    simp [hconflict s hs]
  simp only [freshStatus, Nat.pos_iff_ne_zero.1 hconfidence, hrows, hconflict, decide_false,
    Bool.or_self, Bool.false_eq_true, if_false]
  cases (t.movieQualities movie.id).isEmpty <;> rfl

/-- The status of a movie that is decided by its rows. -/
def decidedStatus (t : ArchiveTables) (movieId : ℕ) : MovieStatus :=
  if (t.movieQualities movieId).isEmpty then .orphan else .indexed

/-- **Revalidating a movie whose rows are in step** decides its status and changes nothing else. -/
theorem revalidateMovie_eq {window : PosterCandidate × List ArchiveMessage}
    (hkeys : t.UniqueKeys) (hstream : t.HoldsStream channelId ms)
    (hbound : ∀ m ∈ ms, m.messageId < bigintMax) (hmovie : movie.archiveChannelId = channelId)
    (hchannel : ∀ row ∈ t.qualities, row.movieId = movie.id → row.archiveChannelId = channelId)
    (hconfidence : 0 < movie.parserConfidence)
    (hposter : detectPoster window.1.message = some window.1)
    (hposterId : window.1.message.messageId = movie.posterMessageId)
    (hseg : ∀ m ∈ window.2, detectPoster m = none)
    (hmessages : t.rangeMessages movie = window.1.message :: window.2)
    (hitems : t.movieItems movie.id = parser.windowItems window) :
    (t.revalidateMovie parser movie).1 =
      t.updateMovie movie.id fun m => { m with status := t.decidedStatus movie.id } := by
  have hbounded : t.BoundedIn movie.archiveChannelId := hmovie ▸ hstream.boundedIn hbound
  have hunconflicted := hstream.unconflicted hmovie
  have hparse : t.parseMovieGroup parser movie none = some (parser.groupOf (some 32) window) := by
    refine parseMovieGroup_eq_some.2 ⟨hconfidence, window.1, window.2, ⟨window.1.message, ?_,
      hposterId, hposter⟩, ?_⟩
    · rw [movieMessages_of_unconflicted hbounded hunconflicted, hmessages]
    · rw [segment_of_none hseg]
  have haccepted : ∀ item, item ∈ t.acceptedQualities parser movie ↔
      item ∈ t.movieItems movie.id := by
    intro item
    rw [acceptedQualities, hparse, hitems]
    exact (parser.qualities_groupOf window).mem_iff
  have hsame : t.revalidateAttachedQualities parser movie = t :=
    revalidateAttachedQualities_eq_self hkeys hchannel haccepted
  have hstatus : t.freshStatus movie = t.decidedStatus movie.id := by
    refine freshStatus_of_accepted hconfidence (fun row hrow => ?_) ?_
    · obtain ⟨hrow, hid⟩ := mem_movieQualities.1 hrow
      have hitem : parsedColumns row ∈ parser.windowItems window :=
        hitems ▸ mem_movieItems.2 ⟨row, hrow, hid, rfl⟩
      obtain ⟨m, -, haccepts⟩ := ArchiveParser.accepts_of_mem_windowItems hitem
      exact haccepts.confidence_pos.ne'
    · rw [snapshotsUpTo_rangeStop hbounded]
      exact hunconflicted
  rw [revalidateMovie, hsame, refreshMovieStatus, hstatus]

end

end ArchiveTables

end CineGate
