/-
**Indexing does not look at versions.**

A snapshot counts how often it has been written, and only `_record_snapshot` compares the count.
Once a message has been recorded, whatever is done about it is done in the same way in tables whose
snapshots are all in their first version.  A message that is reconciled once more without having
been edited therefore leaves the snapshots as they are, versions apart.

* `ArchiveTables.unversioned` — the tables with all snapshots in their first version;
* `ArchiveTables.reconcileMessage_unversioned` — the index of a recorded message does not look at
  them;
* `ArchiveTables.recordMessage_unversioned`, `ArchiveTables.recordMessage_again` — recording a
  message.
-/

import CineGate.ArchiveReplays

set_option relaxedAutoImplicit false
set_option autoImplicit false

namespace CineGate

/-- The snapshot in its first version. -/
def ArchiveMessageSnapshot.firstVersion (s : ArchiveMessageSnapshot) : ArchiveMessageSnapshot :=
  { s with version := 1 }

theorem ArchiveMessageSnapshot.key_firstVersion (s : ArchiveMessageSnapshot) :
    s.firstVersion.key = s.key := rfl

namespace ArchiveTables

variable {t t' : ArchiveTables} {channelId : ℤ} {messageId : ℕ} {movie : Movie}
  {message : ArchiveMessage}

/-- The tables with every snapshot in its first version. -/
def unversioned (t : ArchiveTables) : ArchiveTables :=
  { t with
    snapshots := t.snapshots.modify ArchiveMessageSnapshot.firstVersion
      ArchiveMessageSnapshot.key_firstVersion }

@[simp] theorem movies_unversioned : t.unversioned.movies = t.movies := rfl

@[simp] theorem qualities_unversioned : t.unversioned.qualities = t.qualities := rfl

theorem mem_unversioned {s' : ArchiveMessageSnapshot} :
    s' ∈ t.unversioned.snapshots ↔ ∃ s ∈ t.snapshots, s.firstVersion = s' := List.mem_map

theorem rows_unversioned :
    t.unversioned.snapshots.rows = t.snapshots.rows.map ArchiveMessageSnapshot.firstVersion := rfl

theorem snapshot?_unversioned :
    t.unversioned.snapshot? channelId messageId =
      (t.snapshot? channelId messageId).map ArchiveMessageSnapshot.firstVersion :=
  KeyedTable.find?_modify _ _ ArchiveMessageSnapshot.key_firstVersion _

theorem isSome_snapshot?_unversioned :
    (t.unversioned.snapshot? channelId messageId).isSome =
    (t.snapshot? channelId messageId).isSome := by
  rw [snapshot?_unversioned, Option.isSome_map]

theorem Linked.unversioned (h : t.Linked) : t.unversioned.Linked := by
  refine ⟨fun movie hmovie => ?_, fun row hrow => ?_, h.rowMovie, h.disjoint⟩
  · rw [isSome_snapshot?_unversioned]
    exact h.posterRecorded movie hmovie
  · rw [isSome_snapshot?_unversioned]
    exact h.rowRecorded row hrow

/-- A first version fits where any version does. -/
theorem fitsColumns_unversioned (h : t.fitsColumns) : t.unversioned.fitsColumns := by
  obtain ⟨hsnapshots, hmovies, hqualities⟩ := fitsColumns_iff.1 h
  refine fitsColumns_iff.2 ⟨?_, hmovies, hqualities⟩
  rintro s' hs'
  obtain ⟨s, hs, rfl⟩ := mem_unversioned.1 hs'
  have hfits := hsnapshots s hs
  simp only [ArchiveMessageSnapshot.fits, Bool.and_eq_true, decide_eq_true_eq] at hfits ⊢
  exact ⟨hfits.1, by simp [ArchiveMessageSnapshot.firstVersion, integerMax]⟩

/-! ### What the index reads -/

theorem snapshotsUpTo_unversioned {stop : ℕ} : t.unversioned.snapshotsUpTo movie stop =
    (t.snapshotsUpTo movie stop).map ArchiveMessageSnapshot.firstVersion := by
  rw [snapshotsUpTo, rows_unversioned, List.filter_map]
  rfl

theorem firstConflict_unversioned : t.unversioned.firstConflict movie = t.firstConflict movie := by
  have hstop : t.unversioned.rangeStop movie = t.rangeStop movie := rfl
  rw [firstConflict, hstop, snapshotsUpTo_unversioned, List.filter_map, List.map_map]
  rfl

theorem movieMessages_unversioned {through : Option ℕ} :
    t.unversioned.movieMessages movie through = t.movieMessages movie through := by
  have hstop : t.unversioned.rangeStop movie = t.rangeStop movie := rfl
  rw [movieMessages, hstop, firstConflict_unversioned, snapshotsUpTo_unversioned, List.filter_map,
    List.map_map]
  rfl

section

variable [UnicodeData] {parser : ArchiveParser}

theorem parseMovieGroup_unversioned {through : Option ℕ} :
    t.unversioned.parseMovieGroup parser movie through =
      t.parseMovieGroup parser movie through := by
  rw [parseMovieGroup, movieMessages_unversioned]
  rfl

theorem revalidateAttachedQualities_unversioned :
    t.unversioned.revalidateAttachedQualities parser movie =
      (t.revalidateAttachedQualities parser movie).unversioned := by
  have haccepted : t.unversioned.acceptedQualities parser movie =
      t.acceptedQualities parser movie := by
    rw [acceptedQualities, parseMovieGroup_unversioned]
    rfl
  simp only [revalidateAttachedQualities, haccepted]
  rfl

omit [UnicodeData] in
theorem freshStatus_unversioned : t.unversioned.freshStatus movie = t.freshStatus movie := by
  have hstop : t.unversioned.rangeStop movie = t.rangeStop movie := rfl
  have hconflict :
      ((t.unversioned.snapshotsUpTo movie (t.rangeStop movie)).any fun s => s.conflicted) =
        (t.snapshotsUpTo movie (t.rangeStop movie)).any fun s => s.conflicted := by
    rw [snapshotsUpTo_unversioned, List.any_map]
    rfl
  simp only [freshStatus, hstop, hconflict]
  rfl

/-! ### What the index does -/

/-- The tables of a result in their first versions. -/
def unversionedResult {α : Type} (result : ArchiveTables × α) : ArchiveTables × α :=
  (result.1.unversioned, result.2)

theorem revalidateMovie_unversioned : t.unversioned.revalidateMovie parser movie =
    unversionedResult (t.revalidateMovie parser movie) := by
  simp only [revalidateMovie, revalidateAttachedQualities_unversioned, refreshMovieStatus,
    freshStatus_unversioned]
  rfl

theorem reconcileBoundary_unversioned : t.unversioned.reconcileBoundary parser channelId messageId =
    (t.reconcileBoundary parser channelId messageId).unversioned := by
  have hbefore : t.unversioned.movieBefore? channelId messageId =
      t.movieBefore? channelId messageId := rfl
  rw [reconcileBoundary, reconcileBoundary, hbefore]
  cases t.movieBefore? channelId messageId with
  | none => rfl
  | some movie => exact congrArg Prod.fst revalidateMovie_unversioned

theorem reconcilePosterEdit_unversioned : t.unversioned.reconcilePosterEdit parser movie message =
    unversionedResult (t.reconcilePosterEdit parser movie message) := by
  unfold reconcilePosterEdit
  split
  · rfl
  · cases parsePoster parser message with
    | none => rfl
    | some group =>
        have hupdate : t.unversioned.updateMovie movie.id (setPoster group) =
            (t.updateMovie movie.id (setPoster group)).unversioned := rfl
        dsimp only
        rw [hupdate, revalidateMovie_unversioned]
        rfl

theorem reconcileQualityEdit_unversioned {row : MovieQuality} :
    t.unversioned.reconcileQualityEdit parser movie row message =
      unversionedResult (t.reconcileQualityEdit parser movie row message) := by
  unfold reconcileQualityEdit
  rw [parseMovieGroup_unversioned]
  split
  · rfl
  · cases groupQuality? (t.parseMovieGroup parser movie (some message.messageId)) message.messageId
      with
    | none => rfl
    | some parsed =>
        have hupdate : t.unversioned.updateQuality row.id (setQualityColumns parsed) =
            (t.updateQuality row.id (setQualityColumns parsed)).unversioned := rfl
        dsimp only
        rw [hupdate, revalidateMovie_unversioned, qualities_unversioned]
        split
        · rfl
        · rfl

omit [UnicodeData] in
theorem closePending_unversioned :
    t.unversioned.closePending movie = (t.closePending movie).unversioned := by
  unfold closePending
  split
  · rfl
  · rfl

theorem upsertPoster_unversioned {group : ParsedMovieGroup} :
    t.unversioned.upsertPoster parser channelId group =
      unversionedResult (t.upsertPoster parser channelId group) := by
  have hposter : ∀ u : ArchiveTables, u.unversioned.posterMovie? channelId group.posterMessageId =
      u.posterMovie? channelId group.posterMessageId := fun _ => rfl
  have hbefore : t.unversioned.movieBefore? channelId group.posterMessageId =
      t.movieBefore? channelId group.posterMessageId := rfl
  unfold upsertPoster
  rw [hbefore]
  cases t.movieBefore? channelId group.posterMessageId with
  | none =>
      dsimp only
      rw [hposter]
      split
      · rfl
      · rfl
  | some previous =>
      dsimp only
      simp only [closePending_unversioned, hposter]
      split
      · rfl
      · have hinsert : ∀ u : ArchiveTables, (⟨u.unversioned.snapshots, u.unversioned.movies.insert
            (newMovie u.unversioned.movies.freshKey channelId group), u.unversioned.qualities⟩ :
              ArchiveTables) = (⟨u.snapshots, u.movies.insert
                (newMovie u.movies.freshKey channelId group), u.qualities⟩ :
                  ArchiveTables).unversioned :=
          fun _ => rfl
        rw [hinsert, revalidateMovie_unversioned]
        rfl

omit [UnicodeData] in
theorem upsertQualityRow_unversioned {movieId : ℕ} {parsed : ParsedQuality} :
    t.unversioned.upsertQualityRow movieId channelId parsed =
      unversionedResult (t.upsertQualityRow movieId channelId parsed) := by
  unfold upsertQualityRow
  rw [qualities_unversioned]
  cases t.qualities.rows.find? fun row => row.movieId = movieId && row.quality = parsed.quality with
  | none => rfl
  | some row =>
      dsimp only
      split
      · rfl
      · rfl

theorem upsertQuality_unversioned : t.unversioned.upsertQuality parser channelId message =
    (t.upsertQuality parser channelId message).map unversionedResult := by
  unfold upsertQuality
  have hbefore : t.unversioned.movieBefore? channelId message.messageId =
      t.movieBefore? channelId message.messageId := rfl
  rw [hbefore]
  cases t.movieBefore? channelId message.messageId with
  | none => rfl
  | some movie =>
      dsimp only
      rw [parseMovieGroup_unversioned]
      cases t.parseMovieGroup parser movie (some message.messageId) with
      | none => rfl
      | some group =>
          dsimp only
          cases group.qualities.find? fun item => item.messageId = message.messageId with
          | none => rfl
          | some parsed =>
              dsimp only
              split
              · rfl
              · rw [upsertQualityRow_unversioned]
                simp only [unversionedResult, revalidateMovie_unversioned, Except.map]
                rfl

theorem indexMessage_unversioned : t.unversioned.indexMessage parser channelId message =
    (t.indexMessage parser channelId message).map unversionedResult := by
  unfold indexMessage
  rw [reconcileBoundary_unversioned]
  cases message.mediaKind with
  | photo =>
      cases parsePoster parser message with
      | none => rfl
      | some group => exact congrArg Except.ok upsertPoster_unversioned
  | video | document =>
      cases extractQuality (message.caption.getD []) with
      | none => rfl
      | some quality => exact upsertQuality_unversioned
  | other => rfl

/-- **The index of a recorded message** does not look at versions. -/
theorem reconcileMessage_unversioned : t.unversioned.reconcileMessage parser channelId message =
    (t.reconcileMessage parser channelId message).map unversionedResult := by
  have hposter : t.unversioned.posterMovie? channelId message.messageId =
      t.posterMovie? channelId message.messageId := rfl
  have hrow : t.unversioned.attachedQuality? channelId message.messageId =
      t.attachedQuality? channelId message.messageId := rfl
  have hmovie : t.unversioned.attachedMovie? channelId message.messageId =
      t.attachedMovie? channelId message.messageId := rfl
  unfold reconcileMessage
  rw [hposter, hrow, hmovie, indexMessage_unversioned]
  cases t.posterMovie? channelId message.messageId with
  | some movie => exact congrArg Except.ok reconcilePosterEdit_unversioned
  | none =>
      cases t.attachedQuality? channelId message.messageId with
      | none => rfl
      | some row =>
          cases t.attachedMovie? channelId message.messageId with
          | none => rfl
          | some movie => exact congrArg Except.ok reconcileQualityEdit_unversioned

end

/-! ### Recording a message -/

/-- An unseen message is recorded in its first version. -/
theorem recordMessage_unversioned (hnone : t.snapshot? channelId message.messageId = none) :
    (t.recordMessage channelId message).unversioned =
      t.unversioned.recordMessage channelId message := by
  have hnone' : t.unversioned.snapshot? channelId message.messageId = none := by
    rw [snapshot?_unversioned, hnone]
    rfl
  rw [recordMessage, recordMessage, hnone, hnone']
  exact congrArg (fun snapshots => (⟨snapshots, t.movies, t.qualities⟩ : ArchiveTables))
    (KeyedTable.modify_insert t.snapshots (newSnapshot channelId message)
      ArchiveMessageSnapshot.firstVersion ArchiveMessageSnapshot.key_firstVersion)

/-- **A message that is recorded as it is** changes a version and nothing else. -/
theorem recordMessage_again (hsnapshot : t.unversioned.snapshot? channelId message.messageId =
    some (newSnapshot channelId message)) :
    (t.recordMessage channelId message).unversioned = t.unversioned := by
  rw [snapshot?_unversioned] at hsnapshot
  obtain ⟨s, hs, hsame⟩ := Option.map_eq_some_iff.1 hsnapshot
  rw [recordMessage, hs]
  refine congrArg (fun snapshots => (⟨snapshots, t.movies, t.qualities⟩ : ArchiveTables))
    (KeyedTable.ext ?_)
  refine (List.map_map ..).trans (List.map_congr_left fun s' hs' => ?_)
  rw [Function.comp_apply]
  split
  · next hkey =>
      -- it is the row of the message, whose other columns are written as they are
      obtain rfl := t.snapshots.ext_key hs' (KeyedTable.mem_of_find? hs)
        (hkey.trans (KeyedTable.key_of_find? hs).symm)
      simp only [ArchiveMessageSnapshot.firstVersion, newSnapshot, ArchiveMessageSnapshot.mk.injEq,
        true_and, and_true] at hsame ⊢
      obtain ⟨-, -, hkind, hcaption, hedited, hconflicted⟩ := hsame
      exact ⟨hkind.symm, hcaption.symm, hedited.symm, hconflicted.symm⟩
  · rfl

end ArchiveTables

end CineGate
