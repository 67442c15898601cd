/-
**The identity of archive rows.**

A transaction of the indexer has at most one statement that writes a column under a unique
constraint: it adds a movie, adds or takes over a row, or relabels a row.  Each entry path has made
sure that the statement finds the key free, so the constraints hold after every statement and the
database never refuses one.  Rows are never removed; a row that is taken over moves to a newer
message and stays with its movie.

* `ArchiveTables.SameKeys` — an update that writes no key;
* `ArchiveTables.KeyStatement` — the statements that write one;
* `ArchiveTables.IndexStep.keyStatement` — what a recorded message makes of the keys;
* `ArchiveTables.KeepsRows` — rows stay with their movie and move to newer messages;
* `ArchiveTables.rows_keep_identity` — the invariant of every run.
-/

import CineGate.ChannelTables
import CineGate.Transition

set_option relaxedAutoImplicit false
set_option autoImplicit false

namespace CineGate

namespace ArchiveTables

variable {t t' t'' : ArchiveTables}

/-! ### Updates that write no key -/

/-- Every movie and every row keeps the columns that are under a unique constraint. -/
structure SameKeys (t t' : ArchiveTables) : Prop extends SamePlaces t t' where
  labels : ∀ id, (t'.qualities.find? id).map MovieQuality.quality =
    (t.qualities.find? id).map MovieQuality.quality

theorem SameKeys.refl : SameKeys t t := ⟨.refl, fun _ => rfl⟩

theorem SameKeys.trans (h : SameKeys t t') (h' : SameKeys t' t'') : SameKeys t t'' :=
  ⟨h.toSamePlaces.trans h'.toSamePlaces, fun id => (h'.labels id).trans (h.labels id)⟩

/-- Nothing but the rows has labels. -/
theorem SamePlaces.sameKeys (h : SamePlaces t t') (hqualities : t'.qualities = t.qualities) :
    SameKeys t t' := ⟨h, fun id => by rw [hqualities]⟩

theorem sameKeys_recordMessage {channelId : ℤ} {message : ArchiveMessage} :
    SameKeys t (t.recordMessage channelId message) :=
  samePlaces_recordMessage.sameKeys qualities_recordMessage

theorem sameKeys_modifyQualities {f : MovieQuality → MovieQuality} {hf : ∀ row, (f row).id = row.id}
    (hplace : ∀ row, rowPlace (f row) = rowPlace row)
    (hlabel : ∀ row, (f row).quality = row.quality) :
    SameKeys t { t with qualities := t.qualities.modify f hf } := by
  refine ⟨samePlaces_modifyQualities hplace, fun id => ?_⟩
  rw [KeyedTable.find?_modify, Option.map_map]
  congr 1
  exact funext hlabel

theorem sameKeys_updateQuality {rowId : ℕ} {f : MovieQuality → MovieQuality}
    {hf : ∀ row, (f row).id = row.id} (hplace : ∀ row, rowPlace (f row) = rowPlace row)
    (hlabel : ∀ row, (f row).quality = row.quality) : SameKeys t (t.updateQuality rowId f hf) := by
  refine sameKeys_modifyQualities (fun row => ?_) fun row => ?_
  · split
    · exact hplace row
    · rfl
  · split
    · exact hlabel row
    · rfl

theorem sameKeys_updateMovie {movieId : ℕ} {f : Movie → Movie}
    {hf : ∀ movie, (f movie).id = movie.id}
    (hplace : ∀ movie, moviePlace (f movie) = moviePlace movie) :
    SameKeys t (t.updateMovie movieId f hf) := (samePlaces_updateMovie hplace).sameKeys rfl

/-- Rows that are set aside keep their keys. -/
theorem SetsAside.sameKeys {f : MovieQuality → MovieQuality} (hf : SetsAside f) {rowId : ℕ} :
    SameKeys t (t.updateQuality rowId f hf.id) := by
  refine sameKeys_updateQuality (fun row => ?_) hf.quality
  rw [rowPlace, hf.movieId, hf.archiveChannelId, hf.archiveMessageId, rowPlace]

theorem sameKeys_closePending {previous : Movie} : SameKeys t (t.closePending previous) := by
  unfold closePending
  split
  · exact sameKeys_updateMovie fun _ => rfl
  · exact .refl

/-- A row of the updated tables and the row it was. -/
theorem SameKeys.row_origin (h : SameKeys t t') {row' : MovieQuality} (hmem : row' ∈ t'.qualities) :
    ∃ row ∈ t.qualities, row.id = row'.id ∧ rowPlace row = rowPlace row' ∧
      row.quality = row'.quality := by
  have hplace := h.rows row'.id
  have hlabel := h.labels row'.id
  rw [KeyedTable.find?_of_mem hmem, Option.map_some] at hplace hlabel
  obtain ⟨row, hrow, hplace⟩ := Option.map_eq_some_iff.1 hplace.symm
  rw [hrow, Option.map_some, Option.some.injEq] at hlabel
  obtain ⟨hmem, hid⟩ := KeyedTable.find?_eq_some.1 hrow
  exact ⟨row, hmem, hid, hplace, hlabel.symm⟩

/-- **Without a new key there is no new clash.** -/
theorem UniqueKeys.of_sameKeys (ht : t.UniqueKeys) (h : SameKeys t t') : t'.UniqueKeys := by
  constructor
  · intro a' ha' b' hb' hchannel hposter
    obtain ⟨a, ha, ha_id, ha_channel, ha_poster⟩ := h.movie_origin ha'
    obtain ⟨b, hb, hb_id, hb_channel, hb_poster⟩ := h.movie_origin hb'
    have hsame : a = b := ht.poster a ha b hb (by rw [ha_channel, hchannel, hb_channel])
      (by rw [ha_poster, hposter, hb_poster])
    refine t'.movies.ext_key ha' hb' ?_
    rw [← ha_id, hsame, hb_id]
  · intro a' ha' b' hb' hchannel hmessage
    obtain ⟨a, ha, ha_id, ha_place, -⟩ := h.row_origin ha'
    obtain ⟨b, hb, hb_id, hb_place, -⟩ := h.row_origin hb'
    simp only [rowPlace, Prod.mk.injEq] at ha_place hb_place
    have hsame : a = b := ht.message a ha b hb (by rw [ha_place.2.1, hchannel, hb_place.2.1])
      (by rw [ha_place.2.2, hmessage, hb_place.2.2])
    refine t'.qualities.ext_key ha' hb' ?_
    rw [← ha_id, hsame, hb_id]
  · intro a' ha' b' hb' hmovie hquality
    obtain ⟨a, ha, ha_id, ha_place, ha_quality⟩ := h.row_origin ha'
    obtain ⟨b, hb, hb_id, hb_place, hb_quality⟩ := h.row_origin hb'
    simp only [rowPlace, Prod.mk.injEq] at ha_place hb_place
    have hsame : a = b := ht.quality a ha b hb (by rw [ha_place.1, hmovie, hb_place.1])
      (by rw [ha_quality, hquality, hb_quality])
    refine t'.qualities.ext_key ha' hb' ?_
    rw [← ha_id, hsame, hb_id]

/-! ### Rows that stay -/

/-- No row is removed or moved to another movie, and none goes back to an older message. -/
def KeepsRows (t t' : ArchiveTables) : Prop :=
  ∀ row ∈ t.qualities, ∃ row' ∈ t'.qualities, row'.id = row.id ∧ row'.movieId = row.movieId ∧
    row.archiveMessageId ≤ row'.archiveMessageId

theorem KeepsRows.refl : KeepsRows t t := fun row hrow => ⟨row, hrow, rfl, rfl, le_rfl⟩

theorem KeepsRows.trans (h : KeepsRows t t') (h' : KeepsRows t' t'') : KeepsRows t t'' := by
  intro row hrow
  obtain ⟨row', hrow', hid, hmovie, hle⟩ := h row hrow
  obtain ⟨row'', hrow'', hid', hmovie', hle'⟩ := h' row' hrow'
  exact ⟨row'', hrow'', hid'.trans hid, hmovie'.trans hmovie, hle.trans hle'⟩

theorem SamePlaces.keepsRows (h : SamePlaces t t') : KeepsRows t t' := by
  intro row hrow
  have hplace := h.rows row.id
  rw [KeyedTable.find?_of_mem hrow, Option.map_some] at hplace
  obtain ⟨row', hrow', hplace⟩ := Option.map_eq_some_iff.1 hplace
  obtain ⟨hmem, hid⟩ := KeyedTable.find?_eq_some.1 hrow'
  simp only [rowPlace, Prod.mk.injEq] at hplace
  exact ⟨row', hmem, hid, hplace.1, hplace.2.2.ge⟩

/-! ### Statements that write a key -/

/-- The statement of a transaction that writes a key, with what the transaction knows of it. -/
inductive KeyStatement (t : ArchiveTables) : ArchiveTables → Prop
  | nothing : KeyStatement t t
  | insertMovie (movie : Movie)
      (hfree : t.posterMovie? movie.archiveChannelId movie.posterMessageId = none) :
      KeyStatement t (t.insertMovie movie)
  | upsertQualityRow (movieId : ℕ) (channelId : ℤ) (parsed : ParsedQuality)
      (hfree : t.attachedQuality? channelId parsed.messageId = none) :
      KeyStatement t (t.upsertQualityRow movieId channelId parsed).1
  | relabel (row : MovieQuality) (hrow : row ∈ t.qualities) (parsed : ParsedQuality)
      (hfree : parsed.quality ≠ row.quality → ∀ other ∈ t.qualities, other.movieId = row.movieId →
        other.quality = parsed.quality → other.id = row.id) :
      KeyStatement t (t.updateQuality row.id (setQualityColumns parsed))

section

variable {movieId : ℕ} {channelId : ℤ} {parsed : ParsedQuality}

/-- `ON CONFLICT DO UPDATE` leaves a row that is attached to a newer message. -/
theorem upsertQualityRow_of_not_newer {row : MovieQuality} (hkeys : t.UniqueKeys)
    (hrow : row ∈ t.qualities) (hmovie : row.movieId = movieId)
    (hquality : row.quality = parsed.quality) (hold : ¬row.archiveMessageId < parsed.messageId) :
    (t.upsertQualityRow movieId channelId parsed).1 = t := by
  unfold ArchiveTables.upsertQualityRow
  split
  · next hnone =>
      have hnot := List.find?_eq_none.1 hnone row hrow
      simp [hmovie, hquality] at hnot
  · next found hfound =>
      have hfound_mem : found ∈ t.qualities := List.mem_of_find?_eq_some hfound
      obtain ⟨hfound_movie, hfound_quality⟩ :
          found.movieId = movieId ∧ found.quality = parsed.quality := by
        simpa using List.find?_some hfound
      obtain rfl : found = row := hkeys.quality found hfound_mem row hrow
        (hfound_movie.trans hmovie.symm) (hfound_quality.trans hquality.symm)
      rw [if_neg hold]

/-- The row that holds the resolution is older than the message, or nothing is written. -/
theorem upsertQualityRow_newer_or_eq (hkeys : t.UniqueKeys) :
    (∀ row ∈ t.qualities, row.movieId = movieId → row.quality = parsed.quality →
        row.archiveMessageId < parsed.messageId) ∨
      (t.upsertQualityRow movieId channelId parsed).1 = t := by
  by_cases hnewer : ∀ row ∈ t.qualities, row.movieId = movieId → row.quality = parsed.quality →
      row.archiveMessageId < parsed.messageId
  · exact .inl hnewer
  · simp only [not_forall] at hnewer
    obtain ⟨row, hrow, hmovie, hquality, hold⟩ := hnewer
    exact .inr (upsertQualityRow_of_not_newer hkeys hrow hmovie hquality hold)

/-- Relabelling a row to a free resolution clashes with no other row. -/
theorem UniqueKeys.relabel (ht : t.UniqueKeys) {row : MovieQuality} (hrow : row ∈ t.qualities)
    (hfree : parsed.quality ≠ row.quality → ∀ other ∈ t.qualities, other.movieId = row.movieId →
      other.quality = parsed.quality → other.id = row.id) :
    (t.updateQuality row.id (setQualityColumns parsed)).UniqueKeys := by
  have hothers : ∀ other ∈ t.qualities, other.id ≠ row.id → other.movieId = row.movieId →
      other.quality ≠ parsed.quality := by
    intro other hother hne hmovie hquality
    by_cases hlabel : parsed.quality = row.quality
    · exact hne (congrArg MovieQuality.id (ht.quality other hother row hrow hmovie
        (hquality.trans hlabel)))
    · exact hne (hfree hlabel other hother hmovie hquality)
  have hplaces : SamePlaces t (t.updateQuality row.id (setQualityColumns parsed)) :=
    samePlaces_setQualityColumns
  refine ⟨ht.poster, fun a ha b hb hchannel hmessage => ?_, fun a ha b hb hmovie hquality => ?_⟩
  · obtain ⟨a₀, ha₀, ha_id, -, ha_channel, ha_message⟩ := hplaces.row_origin ha
    obtain ⟨b₀, hb₀, hb_id, -, hb_channel, hb_message⟩ := hplaces.row_origin hb
    have hsame : a₀ = b₀ := ht.message a₀ ha₀ b₀ hb₀ (by rw [ha_channel, hchannel, hb_channel])
      (by rw [ha_message, hmessage, hb_message])
    refine KeyedTable.ext_key _ ha hb ?_
    rw [← ha_id, hsame, hb_id]
  · rcases mem_updateQuality hrow ha with ⟨ha, ha_ne⟩ | rfl
    · rcases mem_updateQuality hrow hb with ⟨hb, -⟩ | rfl
      · exact ht.quality a ha b hb hmovie hquality
      · exact absurd hquality (hothers a ha ha_ne hmovie)
    · rcases mem_updateQuality hrow hb with ⟨hb, hb_ne⟩ | rfl
      · exact absurd hquality.symm (hothers b hb hb_ne hmovie.symm)
      · rfl

end

/-- **The constraints hold after every statement.** -/
theorem UniqueKeys.keyStatement (ht : t.UniqueKeys) (h : KeyStatement t t') : t'.UniqueKeys := by
  cases h with
  | nothing => exact ht
  | insertMovie movie hfree => exact ht.insertMovie hfree
  | upsertQualityRow movieId channelId parsed hfree =>
      have hunattached := attachedQuality?_eq_none hfree
      rcases upsertQualityRow_newer_or_eq ht with hnewer | hsame
      · exact ht.upsertQualityRow hnewer hunattached
      · rw [hsame]
        exact ht
  | relabel row hrow parsed hfree => exact ht.relabel hrow hfree

/-- **No statement removes a row or moves one back.** -/
theorem UniqueKeys.keepsRows (ht : t.UniqueKeys) (h : KeyStatement t t') : KeepsRows t t' := by
  cases h with
  | nothing => exact .refl
  | insertMovie movie hfree => exact fun row hrow => ⟨row, hrow, rfl, rfl, le_rfl⟩
  | upsertQualityRow movieId channelId parsed hfree =>
      rcases upsertQualityRow_newer_or_eq ht with hnewer | hsame
      · rcases upsertQualityRow_cases channelId hnewer with ⟨-, hupsert⟩ |
          ⟨row₀, hrow₀, hmovie₀, hquality₀, hupsert⟩
        · rw [hupsert]
          intro row hrow
          have hfresh : t.qualities.find?
              (newQuality t.qualities.freshKey movieId channelId parsed).id = none :=
            KeyedTable.find?_freshKey _
          exact ⟨row, (KeyedTable.mem_insert hfresh).2 (.inr hrow), rfl, rfl, le_rfl⟩
        · rw [hupsert]
          intro row hrow
          by_cases hid : row.id = row₀.id
          · obtain rfl : row = row₀ := t.qualities.ext_key hrow hrow₀ hid
            exact ⟨takeOver channelId parsed row, mem_updateQuality_self hrow, rfl, rfl,
              (hnewer row hrow hmovie₀ hquality₀).le⟩
          · exact ⟨row, mem_updateQuality_of_ne hrow hid, rfl, rfl, le_rfl⟩
      · rw [hsame]
        exact .refl
  | relabel row hrow parsed hfree => exact samePlaces_setQualityColumns.keepsRows

/-! ### Calls -/

section

variable [UnicodeData] {parser : ArchiveParser} {channelId : ℤ} {message : ArchiveMessage}

theorem sameKeys_revalidateMovie {movie : Movie} :
    SameKeys t (t.revalidateMovie parser movie).1 := by
  refine ⟨samePlaces_revalidateMovie, fun id => ?_⟩
  have hlabels : SameKeys t (t.revalidateAttachedQualities parser movie) := by
    refine sameKeys_modifyQualities (fun row => ?_) fun row => ?_
    · split
      · exact (revalidateRow_frame _ row).2.1
      · rfl
    · split
      · exact (revalidateRow_frame _ row).2.2
      · rfl
  exact hlabels.labels id

theorem sameKeys_reconcileBoundary {messageId : ℕ} :
    SameKeys t (t.reconcileBoundary parser channelId messageId) := by
  unfold ArchiveTables.reconcileBoundary
  split
  · exact .refl
  · exact sameKeys_revalidateMovie

/-- A conflict writes no key. -/
theorem sameKeys_invalidateSnapshotConflict {messageId : ℕ} :
    SameKeys t (t.invalidateSnapshotConflict parser channelId messageId) := by
  unfold ArchiveTables.invalidateSnapshotConflict
  split
  · exact sameKeys_updateMovie fun _ => rfl
  · split
    · next row movie _ _ =>
        have hrow : SameKeys t (t.updateQuality row.id fun r => { r with parserConfidence := 0 }) :=
          sameKeys_updateQuality (fun _ => rfl) fun _ => rfl
        exact hrow.trans (sameKeys_updateMovie fun _ => rfl)
    · exact sameKeys_reconcileBoundary

/-- **What a recorded message makes of the keys**: one statement that may write one, between updates
that write none. -/
theorem IndexStep.keyStatement (h : IndexStep parser t channelId message t') :
    ∃ before after, SameKeys t before ∧ KeyStatement before after ∧ SameKeys after t' := by
  cases h with
  | posterInvalid movie hposter =>
      exact ⟨t, t, .refl, .nothing, sameKeys_updateMovie fun _ => rfl⟩
  | posterValid movie group hposter hgroup =>
      have hset : SameKeys t (t.updateMovie movie.id (setPoster group)) :=
        sameKeys_updateMovie fun _ => rfl
      exact ⟨t, t, .refl, .nothing, hset.trans sameKeys_revalidateMovie⟩
  | qualityInvalid row movie f hf hposter hrow hmovie =>
      exact ⟨t, t, .refl, .nothing, hf.sameKeys.trans (sameKeys_updateMovie fun _ => rfl)⟩
  | qualityValid row movie parsed hposter hrow hmovie hparsed hfree =>
      have hmovie_id : movie.id = row.movieId := KeyedTable.key_of_find? hmovie
      exact ⟨t, _, .refl, .relabel row (attachedQuality?_eq_some hrow).1 parsed (hmovie_id ▸ hfree),
        sameKeys_revalidateMovie⟩
  | boundary hposter hrow => exact ⟨t, t, .refl, .nothing, sameKeys_reconcileBoundary⟩
  | newPoster group hposter hrow hgroup =>
      rw [← posterMessageId_of_parsePoster hgroup] at hposter
      rw [upsertPoster_eq hposter]
      split
      · next previous hprevious =>
          rw [addPoster_eq hprevious]
          have hclosed : SameKeys t (t.closePending previous) := sameKeys_closePending
          exact ⟨_, _, hclosed, .insertMovie _ (hclosed.posterMovie?_eq_none hposter),
            sameKeys_revalidateMovie⟩
      · next hnone =>
          rw [addPoster_eq_of_none hnone]
          exact ⟨t, _, .refl, .insertMovie _ hposter, .refl⟩
  | candidateIgnored hposter hrow hkind hquality hignored => exact ⟨t, t, .refl, .nothing, .refl⟩
  | candidateAccepted movie parsed hposter hrow hmovie hparsed =>
      obtain ⟨group, -, hfound⟩ := Option.bind_eq_some_iff.1 hparsed
      have hid : parsed.messageId = message.messageId := by simpa using List.find?_some hfound
      exact ⟨t, _, .refl, .upsertQualityRow movie.id channelId parsed (hid ▸ hrow),
        sameKeys_revalidateMovie⟩

/-- The constraints hold before and after the statement that writes a key. -/
theorem UniqueKeys.statements (ht : t.UniqueKeys) (h : IndexStep parser t channelId message t') :
    ∃ before after, SameKeys t before ∧ before.UniqueKeys ∧ KeyStatement before after ∧
      after.UniqueKeys ∧ SameKeys after t' := by
  obtain ⟨before, after, hbefore, hwrite, hafter⟩ := h.keyStatement
  have hkeys : before.UniqueKeys := ht.of_sameKeys hbefore
  exact ⟨before, after, hbefore, hkeys, hwrite, hkeys.keyStatement hwrite, hafter⟩

/-- **Indexing keeps the constraints and the rows.** -/
theorem UniqueKeys.indexStep (ht : t.UniqueKeys) (h : IndexStep parser t channelId message t') :
    t'.UniqueKeys ∧ KeepsRows t t' := by
  obtain ⟨before, after, hbefore, hkeys, hwrite, hkeys', hafter⟩ := ht.statements h
  exact ⟨hkeys'.of_sameKeys hafter, hbefore.keepsRows.trans
    ((hkeys.keepsRows hwrite).trans hafter.keepsRows)⟩

/-- A call keeps the rows. -/
theorem Sound.keepsRows (ht : t.Sound) (c : ArchiveCall) : KeepsRows t (t.call parser c) := by
  have hstep : CallStep parser t c (t.call parser c) := ht.toLinked.callStep c
  generalize t.call parser c = t' at hstep
  cases hstep with
  | unchanged => exact .refl
  | conflicted s hs hfate hkeys =>
      have hmarked : SamePlaces t (t.markConflict c.channelId c.message.messageId) :=
        samePlaces_updateSnapshot
      exact (hmarked.trans sameKeys_invalidateSnapshotConflict.toSamePlaces).keepsRows
  | indexed _ hid hfate h hkeys =>
      have hrecorded : (t.recordMessage c.channelId c.message).UniqueKeys :=
        ht.toUniqueKeys.of_eq movies_recordMessage qualities_recordMessage
      have hrecord : SamePlaces t (t.recordMessage c.channelId c.message) :=
        samePlaces_recordMessage
      exact hrecord.keepsRows.trans (hrecorded.indexStep h).2

/-! ### The database refuses nothing -/

omit [UnicodeData] in
/-- A commit of tables that meet the constraints is not refused for them. -/
theorem UniqueKeys.commit_ne {α : Type} {result : α} (h : t.UniqueKeys) :
    t.commit result ≠ .error .uniqueViolation := by
  by_cases hfits : t.fitsColumns
  · rw [commit_eq_ok hfits h]
    intro herror
    cases herror
  · rw [commit, if_pos (by simpa using hfits)]
    intro herror
    cases herror

/-- Indexing itself raises nothing but the error of a text that is too long. -/
theorem indexMessage_error {error : DbError}
    (h : t.indexMessage parser channelId message = .error error) : error = .dataError := by
  have hupsert : t.upsertQuality parser channelId message = .error error → error = .dataError := by
    intro h
    unfold upsertQuality at h
    split at h
    · cases h
    · split at h
      · cases h
      · split at h
        · cases h
        · split at h
          · cases h
            rfl
          · cases h
  unfold indexMessage at h
  split at h
  · split at h <;> cases h
  · split at h
    · cases h
    · exact hupsert h
  · split at h
    · cases h
    · exact hupsert h
  · cases h

theorem reconcileMessage_error {error : DbError}
    (h : t.reconcileMessage parser channelId message = .error error) : error = .dataError := by
  unfold reconcileMessage at h
  split at h
  · cases h
  · split at h
    · cases h
    · exact indexMessage_error h

/-- A transaction is not refused for a unique constraint. -/
theorem Sound.indexTransaction_ne (ht : t.Sound) {configured : Option SettingValue}
    {reconcile : Bool} {expectedVersion : Option ℕ}
    {index : ArchiveTables → Except DbError (ArchiveTables × ArchiveIndexResult)}
    (herror : ∀ t error, index t = .error error → error = .dataError)
    (hindex : (reconcile = false → t.snapshot? channelId message.messageId = none) →
      ∀ t' result, index (t.recordMessage channelId message) = .ok (t', result) →
        IndexStep parser (t.recordMessage channelId message) channelId message t') :
    indexTransaction parser configured t channelId message reconcile expectedVersion index ≠
      .error .uniqueViolation := by
  unfold indexTransaction
  split
  · next error hconfigured =>
      intro h
      cases h
      cases configured with
      | none => cases hconfigured
      | some value => cases value <;> cases hconfigured
  · split
    · exact nofun
    · split
      · exact nofun
      · split
        next t₁ recorded hrecord =>
          -- kept out, in conflict, or recorded: the unique keys hold in each case
          rcases recordSnapshot_cases hrecord with ⟨rfl, rfl, -⟩ | ⟨rfl, -, -, -, rfl⟩ |
            ⟨rfl, -, rfl, hnew⟩
          · exact ht.toUniqueKeys.commit_ne
          · have hmarked : (t.markConflict channelId message.messageId).UniqueKeys :=
              ht.toUniqueKeys.of_eq rfl rfl
            exact (hmarked.of_sameKeys sameKeys_invalidateSnapshotConflict).commit_ne
          · rw [if_pos rfl]
            split
            · next error hraised =>
                rw [herror _ _ hraised]
                exact nofun
            · next t₂ result hok =>
                have hrecorded : (t.recordMessage channelId message).UniqueKeys :=
                  ht.toUniqueKeys.of_eq movies_recordMessage qualities_recordMessage
                exact (hrecorded.indexStep (hindex hnew _ _ hok)).1.commit_ne

/-- **No call is refused for a unique constraint.** -/
theorem Sound.outcome_ne (ht : t.Sound) (c : ArchiveCall) :
    t.outcome parser c ≠ .error .uniqueViolation := by
  cases c with
  | ingest configured channelId message =>
      rw [outcome, ArchiveTables.ingest]
      refine ht.indexTransaction_ne (fun _ _ => indexMessage_error) fun hnew t' result h => ?_
      obtain ⟨hposter, hrow⟩ := ht.toLinked.unseen (hnew rfl)
      refine indexMessage_step ?_ ?_ h
      · simpa only [posterMovie?, movies_recordMessage] using hposter
      · simpa only [attachedQuality?, qualities_recordMessage] using hrow
  | reconcileEdit configured channelId message expectedSnapshotVersion =>
      rw [outcome, ArchiveTables.reconcileEdit]
      exact ht.indexTransaction_ne (fun _ _ => reconcileMessage_error) fun _ t' result h =>
        ht.toLinked.recordMessage.reconcileMessage_step h

/-! ### Runs -/

theorem run_sound (calls : List ArchiveCall) : (Transition.run (call parser) empty calls).Sound :=
  Transition.run_invariant (fun _ c ht => ht.call c) empty_sound calls

variable (parser) in
/-- **Archive rows keep their identity**, after any calls: posters and attached messages are
recorded, different, and unique; rows stay with their movie, behind its poster, while more calls
come; the one statement of a further call that writes a key leaves the unique constraints in force;
and the call is not refused for one of them. -/
theorem rows_keep_identity (calls more : List ArchiveCall) (c : ArchiveCall) :
    let t := Transition.run (call parser) empty calls
    t.Linked ∧ t.UniqueKeys ∧ KeepsRows t (Transition.run (call parser) t more) ∧
      (∀ t', IndexStep parser (t.recordMessage c.channelId c.message) c.channelId c.message t' →
        ∃ before after, SameKeys (t.recordMessage c.channelId c.message) before ∧
          before.UniqueKeys ∧ KeyStatement before after ∧ after.UniqueKeys ∧ SameKeys after t') ∧
      t.outcome parser c ≠ .error .uniqueViolation := by
  intro t
  have ht : t.Sound := run_sound calls
  have hrecorded : (t.recordMessage c.channelId c.message).UniqueKeys :=
    ht.toUniqueKeys.of_eq movies_recordMessage qualities_recordMessage
  refine ⟨ht.toLinked, ht.toUniqueKeys, ?_, fun _ h => hrecorded.statements h, ht.outcome_ne c⟩
  induction more using List.reverseRecOn with
  | nil => exact .refl
  | append_singleton more c ih =>
      rw [Transition.run_snoc]
      have hrun : (Transition.run (call parser) t more).Sound :=
        Transition.run_invariant (fun _ c ht => ht.call c) ht more
      exact ih.trans (hrun.keepsRows c)

end

end ArchiveTables

end CineGate
