/-
**Posts that can never be recorded.**

A transaction that would write a value its column does not hold is undone, and the update that
caused it comes again.  Years, confidences, styles and statuses always fit; titles are copied from
the caption without a limit.  So a post is refused for its content exactly when the parser takes it
for a poster or accepts it as a quality, and its title text is longer than the columns.

* `ArchiveMessage.ShortTitle` — the title text of a caption fits the columns;
* `ArchiveTables.Linked.outcome_cases` — the ways a call can end;
* `ArchiveTables.reconcileMessage_fits` — short titles are written without an error;
* `ArchiveTables.WritesTitle` — the calls that write the title of their message;
* `ArchiveTables.poisons_iff_long_title` — the messages that are refused whenever they come.
-/

import CineGate.IngestedStream
import CineGate.SnapshotHistory

set_option relaxedAutoImplicit false
set_option autoImplicit false

namespace CineGate

/-! ### The title text -/

section

variable [UnicodeData] {m : ArchiveMessage}

namespace ArchiveMessage

/-- The value of the first title field of a caption. -/
def titleField (m : ArchiveMessage) : Option Str :=
  ((extractFields (boundedCaption m.caption)).find? fun field => field.1 ∈ titleLabels).map Prod.snd

/-- The title text of a file: its title field, or the first line that leaves a title. -/
def fileTitle (m : ArchiveMessage) : Option Str :=
  m.titleField.or (extractFreeformQualityTitle (boundedCaption m.caption))

/-- **The title text is short**: that of a poster when it has been cleaned, that of a file as it
stands, and both when they have been normalized. -/
structure ShortTitle (m : ArchiveMessage) : Prop where
  poster : (detectPoster m).isSome → ∀ title, m.titleField = some title →
    (cleanDisplayTitle title).length ≤ 512 ∧ (normalizeTitle title).length ≤ 512
  file : (detectQuality m).isSome → ∀ title, m.fileTitle = some title →
    title.length ≤ 512 ∧ (normalizeTitle title).length ≤ 512

end ArchiveMessage

/-- The titles of a poster are those of its title field. -/
theorem titles_of_detectPoster {poster : PosterCandidate} (h : detectPoster m = some poster) :
    ∃ title, m.titleField = some title ∧ poster.displayTitle = cleanDisplayTitle title ∧
      poster.normalizedTitle = normalizeTitle title := by
  unfold detectPoster at h
  dsimp only at h
  split at h
  · cases h
  · split at h
    · cases h
    · next titleLabel rawTitle hfield =>
        split at h
        · cases h
        · split at h
          · cases h
          · cases h
            refine ⟨rawTitle, ?_, rfl, rfl⟩
            rw [ArchiveMessage.titleField, hfield]
            rfl

/-- The titles of a file are those of its title text. -/
theorem titles_of_detectQuality {quality : QualityCandidate} (h : detectQuality m = some quality) :
    quality.rawTitle = m.fileTitle ∧ quality.normalizedTitle =
      (m.fileTitle.map normalizeTitle).filter fun title => !title.isEmpty := by
  unfold detectQuality at h
  dsimp only at h
  split at h
  · cases h
  · obtain ⟨resolution, -, rfl⟩ := Option.map_eq_some_iff.1 h
    exact ⟨rfl, rfl⟩

/-- What is written of a message fits exactly when its title text is short. -/
theorem shortTitle_iff : m.ShortTitle ↔ TitlesFit m := by
  constructor
  · intro h
    refine ⟨fun poster hposter => ?_, fun quality hquality => ?_⟩
    · obtain ⟨title, htitle, hdisplay, hnormalized⟩ := titles_of_detectPoster hposter
      rw [hdisplay, hnormalized]
      exact h.poster (by rw [hposter]; rfl) title htitle
    · obtain ⟨hraw, hnormalized⟩ := titles_of_detectQuality hquality
      have hfile := h.file (by rw [hquality]; rfl)
      rw [hraw, hnormalized]
      cases htitle : m.fileTitle with
      | none => exact ⟨rfl, rfl⟩
      | some title =>
          obtain ⟨hlength, hlength'⟩ := hfile title htitle
          refine ⟨decide_eq_true hlength, ?_⟩
          cases hempty : (normalizeTitle title).isEmpty with
          | true => simp [hempty]
          | false => simpa [Option.filter, hempty] using hlength'
  · intro h
    constructor
    · intro hposter title htitle
      obtain ⟨poster, hposter⟩ := Option.isSome_iff_exists.1 hposter
      obtain ⟨title', htitle', hdisplay, hnormalized⟩ := titles_of_detectPoster hposter
      obtain rfl : title = title' := Option.some.inj (htitle.symm.trans htitle')
      rw [← hdisplay, ← hnormalized]
      exact h.poster poster hposter
    · intro hquality title htitle
      obtain ⟨quality, hquality⟩ := Option.isSome_iff_exists.1 hquality
      obtain ⟨hraw, hnormalized⟩ := titles_of_detectQuality hquality
      obtain ⟨hlength, hlength'⟩ := h.quality quality hquality
      rw [hraw, htitle] at hlength
      rw [hnormalized, htitle] at hlength'
      refine ⟨of_decide_eq_true hlength, ?_⟩
      cases hempty : (normalizeTitle title).isEmpty with
      | true => simp [List.isEmpty_iff.1 hempty]
      | false => simpa [Option.filter, hempty] using hlength'

theorem mediaKind_of_detectPoster {poster : PosterCandidate} (h : detectPoster m = some poster) :
    m.mediaKind = .photo := by
  by_contra hkind
  simp [detectPoster, hkind] at h

/-- A message that is no photo and no file writes no titles. -/
theorem titlesFit_of_other (h : m.mediaKind = .other) : TitlesFit m := by
  constructor
  · intro poster hposter
    simp [detectPoster, h] at hposter
  · intro quality hquality
    simp [detectQuality, h] at hquality

end

namespace ArchiveTables

variable {t t' : ArchiveTables} {channelId : ℤ} {message : ArchiveMessage} {movie : Movie}

section

variable [UnicodeData] {parser : ArchiveParser}

/-! ### Recorded titles -/

/-- Every recorded message has short titles. -/
def TitlesRecorded (t : ArchiveTables) : Prop := ∀ s ∈ t.snapshots, TitlesFit s.message

theorem titlesRecorded_iff : t.TitlesRecorded ↔ ∀ channelId messageId s,
    t.snapshot? channelId messageId = some s → TitlesFit s.message := by
  constructor
  · intro h channelId messageId s hs
    exact h s (KeyedTable.mem_of_find? hs)
  · intro h s hs
    exact h s.archiveChannelId s.messageId s (KeyedTable.find?_of_mem hs)

omit [UnicodeData] in
/-- The parser sees a recorded message as it came. -/
theorem message_recordedSnapshot : (t.recordedSnapshot channelId message).message = message := rfl

theorem TitlesRecorded.recordMessage (h : t.TitlesRecorded) (hmessage : TitlesFit message) :
    (t.recordMessage channelId message).TitlesRecorded := by
  refine titlesRecorded_iff.2 fun channelId' messageId' s hs => ?_
  rw [snapshot?_recordMessage] at hs
  split at hs
  · cases hs
    exact hmessage
  · exact titlesRecorded_iff.1 h _ _ s hs

theorem TitlesRecorded.callStep {c : ArchiveCall} (h : t.TitlesRecorded)
    (hmessage : TitlesFit c.message) (hstep : CallStep parser t c t') : t'.TitlesRecorded := by
  refine titlesRecorded_iff.2 fun channelId messageId s hs => ?_
  have hcases : t'.snapshot? channelId messageId = t.snapshot? channelId messageId ∨ _ :=
    hstep.snapshot?
  rcases hcases with hsame | ⟨-, ⟨-, s₀, -, hmarked⟩ | ⟨-, hrecorded⟩⟩
  · exact titlesRecorded_iff.1 h _ _ s (hsame ▸ hs)
  · cases hmarked.symm.trans hs
    exact titlesFit_of_other rfl
  · cases hrecorded.symm.trans hs
    exact hmessage

/-- Runs of messages with short titles record only such. -/
theorem run_titlesRecorded {calls : List ArchiveCall} (h : ∀ c ∈ calls, TitlesFit c.message) :
    (Transition.run (call parser) empty calls).TitlesRecorded := by
  induction calls using List.reverseRecOn with
  | nil => exact fun s hs => (by cases hs)
  | append_singleton calls c ih =>
      rw [Transition.run_snoc]
      have hcalls := ih fun c' hc' => h c' (List.mem_append_left _ hc')
      exact hcalls.callStep (h c (List.mem_append_right _ List.mem_cons_self))
        ((run_sound calls).toLinked.callStep c)

/-! ### Accepted items -/

/-- An item of a movie's group was accepted from a recorded message of its channel. -/
theorem accepts_of_mem_parseMovieGroup {through : Option ℕ} {group : ParsedMovieGroup}
    (h : t.parseMovieGroup parser movie through = some group) {item : ParsedQuality}
    (hitem : item ∈ group.qualities) : ∃ s ∈ t.snapshots,
      s.archiveChannelId = movie.archiveChannelId ∧ ∃ poster, Accepts poster s.message item := by
  obtain ⟨-, poster, rest, ⟨m₀, hms, -, -⟩, rfl⟩ := parseMovieGroup_eq_some.1 h
  have hitem : item ∈ parser.windowItems (poster, segment rest) :=
    (ArchiveParser.qualities_groupOf _).mem_iff.1 hitem
  obtain ⟨m, hm, haccepts⟩ := ArchiveParser.accepts_of_mem_windowItems hitem
  have hm : m ∈ rest := List.takeWhile_subset _ hm
  have hmem : m ∈ t.movieMessages movie through := hms ▸ List.mem_cons_of_mem m₀ hm
  obtain ⟨s, hs, hchannel, rfl⟩ := snapshot_of_mem_movieMessages hmem
  exact ⟨s, hs, hchannel, poster, haccepts⟩

theorem accepts_of_mem_acceptedQualities {item : ParsedQuality}
    (h : item ∈ t.acceptedQualities parser movie) : ∃ s ∈ t.snapshots,
      s.archiveChannelId = movie.archiveChannelId ∧ ∃ poster, Accepts poster s.message item := by
  unfold acceptedQualities at h
  cases hgroup : t.parseMovieGroup parser movie none with
  | none => simp [hgroup] at h
  | some group =>
      rw [hgroup] at h
      exact accepts_of_mem_parseMovieGroup hgroup h

/-- The entry of a group for one message. -/
theorem accepts_of_groupQuality? {messageId : ℕ} {through : Option ℕ} {parsed : ParsedQuality}
    (h : groupQuality? (t.parseMovieGroup parser movie through) messageId = some parsed) :
    ∃ s, t.snapshot? movie.archiveChannelId messageId = some s ∧
      ∃ poster, Accepts poster s.message parsed := by
  obtain ⟨group, hgroup, hfind⟩ := Option.bind_eq_some_iff.1 h
  have hid : parsed.messageId = messageId := by simpa using List.find?_some hfind
  obtain ⟨s, hs, hchannel, poster, haccepts⟩ :=
    accepts_of_mem_parseMovieGroup hgroup (List.mem_of_find?_eq_some hfind)
  refine ⟨s, ?_, poster, haccepts⟩
  have hmessage : s.messageId = messageId := (messageId_of_accepts haccepts).symm.trans hid
  rw [← hchannel, ← hmessage]
  exact KeyedTable.find?_of_mem hs

/-! ### Rows that fit -/

omit [UnicodeData] in
theorem movie_fits_iff : movie.fits ↔ movie.posterMessageId ≤ bigintMax ∧
    movie.displayTitle.length ≤ 512 ∧ movie.normalizedTitle.length ≤ 512 ∧
    (movie.year.all (· ≤ smallintMax)) ∧ movie.parserConfidence ≤ 100 := by
  simp [Movie.fits, and_assoc]

omit [UnicodeData] in
theorem row_fits_iff {row : MovieQuality} : row.fits ↔ row.archiveMessageId ≤ bigintMax ∧
    (row.extractedTitle.all (·.length ≤ 512)) ∧ (row.normalizedTitle.all (·.length ≤ 512)) ∧
    (row.extractedYear.all (· ≤ smallintMax)) ∧ row.parserConfidence ≤ 100 := by
  simp only [MovieQuality.fits, Bool.and_eq_true, decide_eq_true_eq, and_assoc]

omit [UnicodeData] in
/-- A row that loses its confidence still fits. -/
theorem fits_setAside {row : MovieQuality} (h : row.fits) :
    ({ row with parserConfidence := 0 } : MovieQuality).fits := by
  obtain ⟨hid, hraw, hnormalized, hyear, -⟩ := row_fits_iff.1 h
  exact row_fits_iff.2 ⟨hid, hraw, hnormalized, hyear, Nat.zero_le _⟩

omit [UnicodeData] in
/-- A row that takes the columns of an item that fits. -/
theorem fits_setQualityColumns {row : MovieQuality} {item : ParsedQuality} (h : row.fits)
    (hitem : (newQuality 0 0 0 item).fits) : (setQualityColumns item row).fits := by
  obtain ⟨hid, -⟩ := row_fits_iff.1 h
  obtain ⟨-, hcolumns⟩ := row_fits_iff.1 hitem
  exact row_fits_iff.2 ⟨hid, hcolumns⟩

omit [UnicodeData] in
theorem fits_revalidateRow {accepted : List ParsedQuality} {row : MovieQuality} (h : row.fits)
    (haccepted : ∀ item ∈ accepted, (newQuality 0 0 0 item).fits) :
    (revalidateRow accepted row).fits := by
  unfold revalidateRow
  split
  · exact fits_setAside h
  · next item hitem =>
      split
      · have hfits := fits_setQualityColumns h (haccepted item (List.mem_of_find?_eq_some hitem))
        exact hfits
      · exact fits_setAside h

/-- An item accepted from a recorded message fits. -/
theorem fits_of_accepts (hdigits : DecimalDigits) (h : t.fitsColumns) (htitles : t.TitlesRecorded)
    {s : ArchiveMessageSnapshot} (hs : s ∈ t.snapshots) {poster : PosterCandidate}
    {item : ParsedQuality} (haccepts : Accepts poster s.message item) :
    (newQuality 0 0 0 item).fits := by
  have hid : s.messageId ≤ bigintMax := by
    have hfits := (fitsColumns_iff.1 h).1 s hs
    simp only [ArchiveMessageSnapshot.fits, Bool.and_eq_true, decide_eq_true_eq] at hfits
    exact hfits.1
  exact haccepts.fits hdigits hid (htitles s hs)

/-- **Revalidation** writes the titles of recorded messages. -/
theorem fitsColumns_revalidateMovie (hdigits : DecimalDigits) (h : t.fitsColumns)
    (htitles : t.TitlesRecorded) : (t.revalidateMovie parser movie).1.fitsColumns := by
  obtain ⟨hsnapshots, hmovies, hqualities⟩ := fitsColumns_iff.1 h
  have hrows : (t.revalidateAttachedQualities parser movie).fitsColumns := by
    refine fitsColumns_iff.2 ⟨hsnapshots, hmovies, fun row' hrow' => ?_⟩
    obtain ⟨row, hrow, rfl⟩ := mem_qualities_revalidateMovie hrow'
    split
    · refine fits_revalidateRow (hqualities row hrow) fun item hitem => ?_
      obtain ⟨s, hs, -, poster, haccepts⟩ := accepts_of_mem_acceptedQualities hitem
      exact fits_of_accepts hdigits h htitles hs haccepts
    · exact hqualities row hrow
  exact fitsColumns_updateMovie hrows fun movie hmovie => hmovie

theorem fitsColumns_reconcileBoundary (hdigits : DecimalDigits) (h : t.fitsColumns)
    (htitles : t.TitlesRecorded) {messageId : ℕ} :
    (t.reconcileBoundary parser channelId messageId).fitsColumns := by
  unfold reconcileBoundary
  split
  · exact h
  · exact fitsColumns_revalidateMovie hdigits h htitles

/-- A message in conflict writes no title. -/
theorem fitsColumns_invalidateSnapshotConflict (hdigits : DecimalDigits) (h : t.fitsColumns)
    (htitles : t.TitlesRecorded) {messageId : ℕ} :
    (t.invalidateSnapshotConflict parser channelId messageId).fitsColumns := by
  unfold invalidateSnapshotConflict
  split
  · refine fitsColumns_updateMovie h fun movie hmovie => ?_
    obtain ⟨hid, hdisplay, hnormalized, hyear, -⟩ := movie_fits_iff.1 hmovie
    exact movie_fits_iff.2 ⟨hid, hdisplay, hnormalized, hyear, Nat.zero_le _⟩
  · split
    · exact fitsColumns_updateMovie (fitsColumns_updateQuality h fun row => fits_setAside)
        fun movie hmovie => hmovie
    · exact fitsColumns_reconcileBoundary hdigits h htitles

omit [UnicodeData] in
theorem fitsColumns_insertMovie {new : Movie} (h : t.fitsColumns) (hnew : new.fits) :
    (t.insertMovie new).fitsColumns := by
  obtain ⟨hsnapshots, hmovies, hqualities⟩ := fitsColumns_iff.1 h
  refine fitsColumns_iff.2 ⟨hsnapshots, fun movie hmovie => ?_, hqualities⟩
  rcases KeyedTable.mem_of_mem_insert hmovie with rfl | hmem
  · exact hnew
  · exact hmovies movie hmem

omit [UnicodeData] in
theorem snapshots_closePending {previous : Movie} :
    (t.closePending previous).snapshots = t.snapshots := by
  unfold closePending
  split <;> rfl

omit [UnicodeData] in
theorem fitsColumns_closePending {previous : Movie} (h : t.fitsColumns) :
    (t.closePending previous).fitsColumns := by
  unfold closePending
  split
  · exact fitsColumns_updateMovie h fun movie hmovie => hmovie
  · exact h

/-! ### Short titles are written -/

/-- The poster columns of a message with short titles. -/
theorem setPoster_fits (hdigits : DecimalDigits) (hmessage : TitlesFit message)
    (hid : message.messageId ≤ bigintMax) {group : ParsedMovieGroup}
    (hgroup : parsePoster parser message = some group) :
    (∀ id channelId, (newMovie id channelId group).fits) ∧
      ∀ movie : Movie, movie.fits → (setPoster group movie).fits := by
  obtain ⟨poster, hposter, rfl⟩ := parsePoster_eq_some hgroup
  have hnew : ∀ id channelId, (newMovie id channelId (parser.groupOf none (poster, []))).fits :=
    fun _ _ => hmessage.newMovie_fits hdigits hid hposter
  refine ⟨hnew, fun movie hmovie => movie_fits_iff.2 ⟨(movie_fits_iff.1 hmovie).1, ?_⟩⟩
  exact (movie_fits_iff.1 (hnew 0 0)).2

theorem reconcilePosterEdit_fits (hdigits : DecimalDigits) (h : t.fitsColumns)
    (htitles : t.TitlesRecorded) (hmessage : TitlesFit message)
    (hid : message.messageId ≤ bigintMax) :
    (t.reconcilePosterEdit parser movie message).1.fitsColumns := by
  have hinvalid : (t.invalidatePoster movie message).fitsColumns := by
    refine fitsColumns_updateMovie h fun movie hmovie => ?_
    obtain ⟨hposter, hdisplay, hnormalized, hyear, -⟩ := movie_fits_iff.1 hmovie
    exact movie_fits_iff.2 ⟨hposter, hdisplay, hnormalized, hyear, Nat.zero_le _⟩
  unfold reconcilePosterEdit
  split
  · exact hinvalid
  · split
    · exact hinvalid
    · next group hgroup =>
        have hset : (t.updateMovie movie.id (setPoster group)).fitsColumns :=
          fitsColumns_updateMovie h
            (setPoster_fits hdigits hmessage hid hgroup).2
        exact fitsColumns_revalidateMovie hdigits hset htitles

theorem reconcileQualityEdit_fits (hdigits : DecimalDigits) (h : t.fitsColumns)
    (htitles : t.TitlesRecorded) {row : MovieQuality} :
    (t.reconcileQualityEdit parser movie row message).1.fitsColumns := by
  have hset : ∀ f (hf : ∀ row : MovieQuality, (f row).id = row.id),
      (∀ row : MovieQuality, row.fits → (f row).fits) →
        ((t.updateQuality row.id f hf).updateMovie movie.id fun m =>
          { m with status := .ambiguous }).fitsColumns := fun f hf hfits =>
    fitsColumns_updateMovie (fitsColumns_updateQuality h hfits) fun movie hmovie => hmovie
  have hinvalid : ∀ diagnostic,
      (t.invalidateQualityEdit movie row message diagnostic).1.fitsColumns := fun _ =>
    hset _ _ fun row hrow => row_fits_iff.2 ⟨(row_fits_iff.1 hrow).1, rfl, rfl, rfl, Nat.zero_le _⟩
  unfold reconcileQualityEdit
  split
  · exact hinvalid _
  · split
    · exact hinvalid _
    · next parsed hparsed =>
        split
        · exact hset _ _ fun row hrow => fits_setAside hrow
        · obtain ⟨s, hs, poster, haccepts⟩ := accepts_of_groupQuality? hparsed
          have hitem := fits_of_accepts hdigits h htitles (KeyedTable.mem_of_find? hs) haccepts
          have hrow : (t.updateQuality row.id (setQualityColumns parsed)).fitsColumns :=
            fitsColumns_updateQuality h fun row hrow => fits_setQualityColumns hrow hitem
          exact fitsColumns_revalidateMovie hdigits hrow htitles

theorem upsertPoster_fits (hdigits : DecimalDigits) (h : t.fitsColumns) (htitles : t.TitlesRecorded)
    (hmessage : TitlesFit message) (hid : message.messageId ≤ bigintMax) {group : ParsedMovieGroup}
    (hgroup : parsePoster parser message = some group) :
    (t.upsertPoster parser channelId group).1.fitsColumns := by
  have hnew := (setPoster_fits hdigits hmessage hid hgroup).1
  unfold upsertPoster
  cases t.movieBefore? channelId group.posterMessageId with
  | none =>
      dsimp only
      split
      · exact h
      · exact fitsColumns_insertMovie h (hnew _ _)
  | some previous =>
      dsimp only
      split
      · exact fitsColumns_closePending h
      · have hclosed : (t.closePending previous).fitsColumns := fitsColumns_closePending h
        have hadded := fitsColumns_insertMovie hclosed
          (hnew (t.closePending previous).movies.freshKey channelId)
        refine fitsColumns_revalidateMovie hdigits hadded fun s hs => htitles s ?_
        have hs : s ∈ (t.closePending previous).snapshots := hs
        rwa [snapshots_closePending] at hs

theorem upsertQuality_fits (hdigits : DecimalDigits) (h : t.fitsColumns)
    (htitles : t.TitlesRecorded) :
    ∃ t' result, t.upsertQuality parser channelId message = .ok (t', result) ∧ t'.fitsColumns := by
  unfold upsertQuality
  split
  · exact ⟨_, _, rfl, h⟩
  · next movie hmovie =>
      split
      · exact ⟨_, _, rfl, h⟩
      · next group hgroup =>
          split
          · exact ⟨_, _, rfl, h⟩
          · next parsed hparsed =>
              have hquality :
                  groupQuality? (t.parseMovieGroup parser movie (some message.messageId))
                    message.messageId = some parsed := by
                rw [hgroup]
                exact hparsed
              obtain ⟨s, hs, poster, haccepts⟩ := accepts_of_groupQuality? hquality
              have hitem := fits_of_accepts hdigits h htitles (KeyedTable.mem_of_find? hs) haccepts
              have hrow : (newQuality 0 movie.id channelId parsed).fits := hitem
              have htitles' : (t.upsertQualityRow movie.id channelId parsed).1.TitlesRecorded := by
                intro s hs
                rw [snapshots_upsertQualityRow] at hs
                exact htitles s hs
              rw [hrow]
              exact ⟨_, _, rfl, fitsColumns_revalidateMovie hdigits
                (fitsColumns_upsertQualityRow h hitem) htitles'⟩

theorem indexMessage_fits (hdigits : DecimalDigits) (h : t.fitsColumns) (htitles : t.TitlesRecorded)
    (hmessage : TitlesFit message) (hid : message.messageId ≤ bigintMax) :
    ∃ t' result, t.indexMessage parser channelId message = .ok (t', result) ∧ t'.fitsColumns := by
  have hboundary : (t.reconcileBoundary parser channelId message.messageId).fitsColumns :=
    fitsColumns_reconcileBoundary hdigits h htitles
  unfold indexMessage
  split
  · split
    · exact ⟨_, _, rfl, hboundary⟩
    · next group hgroup =>
        exact ⟨_, _, rfl, upsertPoster_fits hdigits h htitles hmessage hid hgroup⟩
  · split
    · exact ⟨_, _, rfl, hboundary⟩
    · exact upsertQuality_fits hdigits h htitles
  · split
    · exact ⟨_, _, rfl, hboundary⟩
    · exact upsertQuality_fits hdigits h htitles
  · exact ⟨_, _, rfl, hboundary⟩

/-- **Short titles are written without an error.** -/
theorem reconcileMessage_fits (hdigits : DecimalDigits) (h : t.fitsColumns)
    (htitles : t.TitlesRecorded) (hmessage : TitlesFit message)
    (hid : message.messageId ≤ bigintMax) :
    ∃ t' result, t.reconcileMessage parser channelId message = .ok (t', result) ∧
      t'.fitsColumns := by
  unfold reconcileMessage
  split
  · exact ⟨_, _, rfl, reconcilePosterEdit_fits hdigits h htitles hmessage hid⟩
  · split
    · exact ⟨_, _, rfl, reconcileQualityEdit_fits hdigits h htitles⟩
    · exact indexMessage_fits hdigits h htitles hmessage hid

/-! ### The ways a call can end -/

/-- What a call returns or raises, and what has become of the snapshot of its message. -/
inductive CallOutcome (parser : ArchiveParser) (t : ArchiveTables) (c : ArchiveCall) :
    Except DbError (ArchiveTables × ArchiveIndexResult) → Prop
  | misconfigured (hfate : c.fate t = .kept) : CallOutcome parser t c (.error .typeError)
  | otherChannel (hfate : c.fate t = .kept) : CallOutcome parser t c (.ok (t, ignored))
  | largeId (hfate : c.fate t = .kept) (hid : bigintMax < c.message.messageId) :
      CallOutcome parser t c (.error .dataError)
  | kept (hfate : c.fate t = .kept) (result : ArchiveIndexResult) :
      CallOutcome parser t c (t.commit result)
  | conflicted (hfate : c.fate t = .conflicted) (result : ArchiveIndexResult) :
      CallOutcome parser t c (((t.markConflict c.channelId c.message.messageId)
        |>.invalidateSnapshotConflict parser c.channelId c.message.messageId).commit result)
  | recorded (hfate : c.fate t = .recorded) (hid : c.message.messageId ≤ bigintMax) :
      CallOutcome parser t c
        (match (t.recordMessage c.channelId c.message).reconcileMessage parser c.channelId
          c.message with
          | .error error => .error error
          | .ok (t', result) => t'.commit result)

theorem indexTransaction_outcome {c : ArchiveCall} {reconcile : Bool} {expectedVersion : Option ℕ}
    {index : ArchiveTables → Except DbError (ArchiveTables × ArchiveIndexResult)}
    (hfate : getInt c.configured = .ok (some c.channelId) → c.message.messageId ≤ bigintMax →
      c.fate t = t.snapshotFate c.channelId c.message reconcile expectedVersion)
    (hindex : (reconcile = false → t.snapshot? c.channelId c.message.messageId = none) →
      index (t.recordMessage c.channelId c.message) =
        (t.recordMessage c.channelId c.message).reconcileMessage parser c.channelId c.message) :
    CallOutcome parser t c (indexTransaction parser c.configured t c.channelId c.message reconcile
      expectedVersion index) := by
  unfold indexTransaction
  cases hconfigured : getInt c.configured with
  | error error =>
      -- `get_int` fails for a value that is no integer, and only so
      have htype : error = .typeError := by
        cases hvalue : c.configured with
        | none => rw [hvalue] at hconfigured; cases hconfigured
        | some value =>
            rw [hvalue] at hconfigured
            cases value <;> cases hconfigured
            all_goals rfl
      rw [htype]
      refine .misconfigured ?_
      rw [ArchiveCall.fate.eq_def, hconfigured]
  | ok configuredId =>
      dsimp only
      by_cases hchannel : configuredId = some c.channelId
      · rw [hchannel] at hconfigured
        rw [if_neg (not_not.2 hchannel)]
        by_cases hid : bigintMax < c.message.messageId
        · rw [if_pos hid]
          refine .largeId ?_ hid
          rw [ArchiveCall.fate.eq_def, hconfigured]
          simp [hid]
        · rw [if_neg hid]
          have hfate := hfate hconfigured (not_lt.1 hid)
          cases hrecord : t.recordSnapshot parser c.channelId c.message reconcile expectedVersion
            with
          | mk t₁ recorded =>
              rcases recordSnapshot_cases hrecord with ⟨rfl, rfl, hkept⟩ |
                ⟨rfl, hconflict, s, -, rfl⟩ | ⟨rfl, hrecorded, rfl, hnew⟩
              · exact .kept (hfate.trans hkept) _
              · exact .conflicted (hfate.trans hconflict) _
              · dsimp only
                rw [if_pos rfl, hindex hnew]
                exact .recorded (hfate.trans hrecorded) (not_lt.1 hid)
      · rw [if_pos hchannel]
        refine .otherChannel ?_
        rw [ArchiveCall.fate.eq_def, hconfigured]
        exact if_pos hchannel

/-- **The ways a call can end.** -/
theorem Linked.callOutcome (ht : t.Linked) (c : ArchiveCall) :
    CallOutcome parser t c (t.outcome parser c) := by
  cases c with
  | ingest configured channelId message =>
      rw [outcome, ArchiveTables.ingest]
      refine indexTransaction_outcome (c := .ingest configured channelId message)
        (fun hconfigured hid => ?_) fun hnew => ?_
      · rw [ArchiveCall.fate.eq_def, hconfigured]
        simp only [ne_eq, not_true, if_false, not_lt.2 hid]
        rfl
      obtain ⟨hposter, hrow⟩ : t.posterMovie? channelId message.messageId = none ∧
          t.attachedQuality? channelId message.messageId = none := ht.unseen (hnew rfl)
      have hposter' : (t.recordMessage channelId message).posterMovie? channelId message.messageId =
          none := by simpa only [posterMovie?, movies_recordMessage] using hposter
      have hrow' :
          (t.recordMessage channelId message).attachedQuality? channelId message.messageId =
            none := by simpa only [attachedQuality?, qualities_recordMessage] using hrow
      dsimp only [ArchiveCall.channelId, ArchiveCall.message]
      simp only [reconcileMessage, hposter', hrow']
  | reconcileEdit configured channelId message expectedSnapshotVersion =>
      rw [outcome, ArchiveTables.reconcileEdit]
      refine indexTransaction_outcome
        (c := .reconcileEdit configured channelId message expectedSnapshotVersion)
        (fun hconfigured hid => ?_) fun _ => rfl
      rw [ArchiveCall.fate.eq_def, hconfigured]
      simp only [ne_eq, not_true, if_false, not_lt.2 hid]
      rfl

/-! ### Short titles are committed -/

omit [UnicodeData] in
theorem fitsColumns_updateSnapshot {messageId : ℕ}
    {f : ArchiveMessageSnapshot → ArchiveMessageSnapshot} {hf : ∀ s, (f s).key = s.key}
    (h : t.fitsColumns)
    (hs : ∀ s, t.snapshot? channelId messageId = some s → s.fits → (f s).fits) :
    (t.updateSnapshot channelId messageId f hf).fitsColumns := by
  obtain ⟨hsnapshots, hmovies, hqualities⟩ := fitsColumns_iff.1 h
  refine fitsColumns_iff.2 ⟨fun s' hs' => ?_, hmovies, hqualities⟩
  have hs' : s' ∈ t.snapshots.modifyAt (toLex (channelId, messageId)) f hf := hs'
  rcases KeyedTable.mem_modifyAt.1 hs' with ⟨hmem, -⟩ | ⟨s, hmem, hkey, rfl⟩
  · exact hsnapshots s' hmem
  · exact hs s (KeyedTable.find?_eq_some.2 ⟨hmem, hkey⟩) (hsnapshots s hmem)

omit [UnicodeData] in
theorem snapshot_fits_iff {s : ArchiveMessageSnapshot} :
    s.fits ↔ s.messageId ≤ bigintMax ∧ s.version ≤ integerMax := by
  simp only [ArchiveMessageSnapshot.fits, Bool.and_eq_true, decide_eq_true_eq]

omit [UnicodeData] in
theorem snapshotVersion_of_snapshot? {messageId : ℕ} {s : ArchiveMessageSnapshot}
    (hs : t.snapshot? channelId messageId = some s) :
    t.snapshotVersion channelId messageId = s.version := by
  rw [snapshotVersion, hs]
  rfl

omit [UnicodeData] in
theorem fitsColumns_recordMessage (h : t.fitsColumns) (hid : message.messageId ≤ bigintMax)
    (hversion : t.snapshotVersion channelId message.messageId < integerMax) :
    (t.recordMessage channelId message).fitsColumns := by
  unfold recordMessage
  split
  · obtain ⟨hsnapshots, hmovies, hqualities⟩ := fitsColumns_iff.1 h
    refine fitsColumns_iff.2 ⟨fun s hs => ?_, hmovies, hqualities⟩
    rcases KeyedTable.mem_of_mem_insert hs with rfl | hs
    · exact snapshot_fits_iff.2 ⟨hid, by simp [newSnapshot, integerMax]⟩
    · exact hsnapshots s hs
  · refine fitsColumns_updateSnapshot h fun s hs hfits => ?_
    rw [snapshotVersion_of_snapshot? hs] at hversion
    exact snapshot_fits_iff.2 ⟨(snapshot_fits_iff.1 hfits).1, hversion⟩

omit [UnicodeData] in
theorem fitsColumns_markConflict {messageId : ℕ} (h : t.fitsColumns)
    (hversion : t.snapshotVersion channelId messageId < integerMax) :
    (t.markConflict channelId messageId).fitsColumns := by
  refine fitsColumns_updateSnapshot h fun s hs hfits => ?_
  rw [snapshotVersion_of_snapshot? hs] at hversion
  exact snapshot_fits_iff.2 ⟨(snapshot_fits_iff.1 hfits).1, hversion⟩

theorem TitlesRecorded.markConflict {messageId : ℕ} (h : t.TitlesRecorded) :
    (t.markConflict channelId messageId).TitlesRecorded := by
  intro s' hs'
  have hs' : s' ∈ t.snapshots.modifyAt (toLex (channelId, messageId))
      (fun s => { s with version := s.version + 1, conflicted := true }) key_marked := hs'
  rcases KeyedTable.mem_modifyAt.1 hs' with ⟨hmem, -⟩ | ⟨s, -, -, rfl⟩
  · exact h s' hmem
  · exact titlesFit_of_other rfl

theorem CallOutcome.eq_of_recorded {c : ArchiveCall}
    {outcome : Except DbError (ArchiveTables × ArchiveIndexResult)}
    (h : CallOutcome parser t c outcome) (hrecorded : c.fate t = .recorded) :
    c.message.messageId ≤ bigintMax ∧ outcome =
      match
          (t.recordMessage c.channelId c.message).reconcileMessage parser c.channelId c.message with
        | .error error => .error error
        | .ok (t', result) => t'.commit result := by
  cases h with
  | misconfigured hfate | otherChannel hfate | largeId hfate | kept hfate | conflicted hfate =>
      rw [hrecorded] at hfate
      cases hfate
  | recorded _ hid => exact ⟨hid, rfl⟩

omit [UnicodeData] in
/-- Tables that fit are committed, or refused for a unique key. -/
theorem commit_of_fitsColumns (h : t.fitsColumns) (result : ArchiveIndexResult) :
    t.commit result = .ok (t, result) ∨ t.commit result = .error .uniqueViolation := by
  unfold commit
  rw [h]
  simp only [Bool.not_true, Bool.false_eq_true, if_false]
  split
  · exact .inl rfl
  · exact .inr rfl

section

variable (hdigits : DecimalDigits) (hfits : t.fitsColumns) (htitles : t.TitlesRecorded)
  {c : ArchiveCall} (hmessage : TitlesFit c.message)
  (hversion : t.snapshotVersion c.channelId c.message.messageId < integerMax)
include hdigits hfits htitles hmessage hversion

/-- A message with short titles that is recorded is committed. -/
theorem Sound.committed (ht : t.Sound) (hfate : c.fate t = .recorded) :
    ∃ t' result, t.outcome parser c = .ok (t', result) ∧ t'.fitsColumns := by
  have hne : t.outcome parser c ≠ .error .uniqueViolation := ht.outcome_ne c
  have houtcome : CallOutcome parser t c (t.outcome parser c) := ht.toLinked.callOutcome c
  obtain ⟨hid, heq⟩ := houtcome.eq_of_recorded hfate
  have hrecorded := fitsColumns_recordMessage hfits hid hversion
  obtain ⟨t', result, hok, ht'⟩ : ∃ t' result,
    (t.recordMessage c.channelId c.message).reconcileMessage parser
      c.channelId c.message = .ok (t', result) ∧ t'.fitsColumns :=
    reconcileMessage_fits hdigits hrecorded (htitles.recordMessage hmessage) hmessage hid
  rw [hok] at heq
  refine ⟨t', result, ?_, ht'⟩
  rcases commit_of_fitsColumns ht' result with hcommit | hcommit
  · exact heq.trans hcommit
  · exact absurd (heq.trans hcommit) hne

/-- **A message with short titles is not refused for its content.** -/
theorem Sound.outcome_ne_dataError (ht : t.Sound) (hid : c.message.messageId ≤ bigintMax) :
    t.outcome parser c ≠ .error .dataError := by
  have hcommit : ∀ (u : ArchiveTables) (result : ArchiveIndexResult), u.fitsColumns →
      u.commit result ≠ .error .dataError := by
    intro u result hu herror
    rcases commit_of_fitsColumns hu result with hok | hunique
    · cases hok.symm.trans herror
    · cases hunique.symm.trans herror
  have houtcome : CallOutcome parser t c (t.outcome parser c) := ht.toLinked.callOutcome c
  have hcommitted : c.fate t = .recorded → t.outcome parser c ≠ .error .dataError := by
    intro hfate herror
    obtain ⟨t', result, hok, -⟩ : ∃ t' result, t.outcome parser c = .ok (t', result) ∧
        t'.fitsColumns :=
      ht.committed hdigits hfits htitles hmessage hversion hfate
    cases hok.symm.trans herror
  generalize t.outcome parser c = outcome at houtcome hcommitted
  cases houtcome with
  | misconfigured _ => exact fun h => by cases h
  | otherChannel _ => exact fun h => by cases h
  | largeId _ hlarge => exact absurd hlarge (not_lt.2 hid)
  | kept _ result => exact hcommit t result hfits
  | conflicted _ result =>
      exact hcommit _ result (fitsColumns_invalidateSnapshotConflict hdigits
        (fitsColumns_markConflict hfits hversion) htitles.markConflict)
  | recorded hfate _ => exact hcommitted hfate

end

/-! ### Long titles are refused -/

/-- The recorded message is the poster of a movie or opens one, is attached to a row and accepted
for it, or is accepted for the movie before it. -/
inductive TitleWritten (parser : ArchiveParser) (t : ArchiveTables) (channelId : ℤ)
    (message : ArchiveMessage) : Prop
  | poster (group : ParsedMovieGroup) (hgroup : parsePoster parser message = some group)
      (hplace : (t.posterMovie? channelId message.messageId).isSome ∨
        t.attachedQuality? channelId message.messageId = none)
  | attached (row : MovieQuality) (movie : Movie) (parsed : ParsedQuality)
      (hposter : t.posterMovie? channelId message.messageId = none)
      (hrow : t.attachedQuality? channelId message.messageId = some row)
      (hmovie : t.movies.find? row.movieId = some movie)
      (hparsed : groupQuality? (t.parseMovieGroup parser movie (some message.messageId))
        message.messageId = some parsed)
      (hfree : parsed.quality ≠ row.quality → ∀ other ∈ t.qualities, other.movieId = movie.id →
        other.quality = parsed.quality → other.id = row.id)
  | candidate (movie : Movie) (parsed : ParsedQuality)
      (hposter : t.posterMovie? channelId message.messageId = none)
      (hrow : t.attachedQuality? channelId message.messageId = none)
      (hquality : (extractQuality (message.caption.getD [])).isSome)
      (hmovie : t.movieBefore? channelId message.messageId = some movie)
      (hparsed : groupQuality? (t.parseMovieGroup parser movie (some message.messageId))
        message.messageId = some parsed)

/-- **The call writes the title of its message**: it records the message, and the parser takes it
for a poster or accepts it as a quality. -/
structure WritesTitle (parser : ArchiveParser) (t : ArchiveTables) (c : ArchiveCall) : Prop where
  recorded : c.fate t = .recorded
  written : TitleWritten parser (t.recordMessage c.channelId c.message) c.channelId c.message

/-- A poster whose titles do not fit. -/
theorem not_fits_of_parsePoster {group : ParsedMovieGroup}
    (hgroup : parsePoster parser message = some group) (hmessage : ¬ TitlesFit message) :
    (∀ id channelId, ¬ (newMovie id channelId group).fits) ∧
      ∀ movie : Movie, ¬ (setPoster group movie).fits := by
  obtain ⟨poster, hposter, rfl⟩ := parsePoster_eq_some hgroup
  have hlong : ¬ (poster.displayTitle.length ≤ 512 ∧ poster.normalizedTitle.length ≤ 512) := by
    refine fun hshort => hmessage ⟨fun poster' hposter' => ?_, fun quality hquality => ?_⟩
    · cases hposter.symm.trans hposter'
      exact hshort
    · -- a photo is no candidate
      have hkind := mediaKind_of_detectPoster hposter
      simp [detectQuality, hkind] at hquality
  constructor
  · intro id channelId hfits
    obtain ⟨-, hdisplay, hnormalized, -⟩ := movie_fits_iff.1 hfits
    exact hlong ⟨hdisplay, hnormalized⟩
  · intro movie hfits
    obtain ⟨-, hdisplay, hnormalized, -⟩ := movie_fits_iff.1 hfits
    exact hlong ⟨hdisplay, hnormalized⟩

/-- An item whose titles do not fit. -/
theorem not_fits_of_accepts {poster : PosterCandidate} {item : ParsedQuality}
    (h : Accepts poster message item) (hmessage : ¬ TitlesFit message) :
    ¬ ((item.rawTitle.all (·.length ≤ 512)) ∧ (item.normalizedTitle.all (·.length ≤ 512))) := by
  obtain ⟨quality, distance, hquality, -, rfl⟩ := h
  refine fun hshort => hmessage ⟨fun poster' hposter => ?_, fun quality' hquality' => ?_⟩
  · -- a photo is no candidate
    have hkind := mediaKind_of_detectPoster hposter
    simp [detectQuality, hkind] at hquality
  · cases hquality.symm.trans hquality'
    exact hshort

omit [UnicodeData] in
/-- A movie that does not fit still does not when other columns are written. -/
theorem not_fitsColumns_updateMovie {movieId : ℕ} {f : Movie → Movie}
    {hf : ∀ movie, (f movie).id = movie.id}
    (hcolumns : ∀ movie : Movie, (f movie).fits = movie.fits)
    {new : Movie} (hmem : new ∈ t.movies) (hnew : ¬ new.fits) :
    ¬ (t.updateMovie movieId f hf).fitsColumns := by
  intro h
  have hmem' : (if new.id = movieId then f new else new) ∈ t.movies.modifyAt movieId f hf :=
    KeyedTable.mem_modify.2 ⟨new, hmem, rfl⟩
  have hfits := (fitsColumns_iff.1 h).2.1 _ hmem'
  split at hfits
  · rw [hcolumns] at hfits
    exact hnew hfits
  · exact hnew hfits

/-- A movie that does not fit still does not after revalidation. -/
theorem not_fitsColumns_of_movie {new : Movie} (hmem : new ∈ t.movies) (hnew : ¬ new.fits) :
    ¬ (t.revalidateMovie parser movie).1.fitsColumns :=
  not_fitsColumns_updateMovie (t := t.revalidateAttachedQualities parser movie) (fun _ => rfl) hmem
    hnew

omit [UnicodeData] in
theorem mem_insertMovie {new : Movie} (h : t.movies.find? new.id = none) :
    new ∈ (t.insertMovie new).movies := (KeyedTable.mem_insert h).2 (.inl rfl)

/-- A row of a message whose titles do not fit still does not fit after revalidation. -/
theorem not_fitsColumns_of_row {row : MovieQuality} (hmem : row ∈ t.qualities)
    (hlong : ¬ ((row.extractedTitle.all (·.length ≤ 512)) ∧
      (row.normalizedTitle.all (·.length ≤ 512))))
    {s : ArchiveMessageSnapshot}
    (hs : t.snapshot? movie.archiveChannelId row.archiveMessageId = some s)
    (hmessage : ¬ TitlesFit s.message) : ¬ (t.revalidateMovie parser movie).1.fitsColumns := by
  intro h
  have hnot : ∀ row' : MovieQuality, row'.fits →
      (row'.extractedTitle.all (·.length ≤ 512)) ∧ (row'.normalizedTitle.all (·.length ≤ 512)) := by
    intro row' hrow'
    obtain ⟨-, hraw, hnormalized, -⟩ := row_fits_iff.1 hrow'
    exact ⟨hraw, hnormalized⟩
  have hafter : (if row.movieId = movie.id then
      revalidateRow (t.acceptedQualities parser movie) row else row) ∈
        (t.revalidateMovie parser movie).1.qualities := List.mem_map.2 ⟨row, hmem, rfl⟩
  have hfits := hnot _ ((fitsColumns_iff.1 h).2.2 _ hafter)
  split at hfits
  · unfold revalidateRow at hfits
    split at hfits
    · exact hlong hfits
    · next item hitem =>
        have hid : item.messageId = row.archiveMessageId := by simpa using List.find?_some hitem
        split at hfits
        · -- the titles come from the same message again
          obtain ⟨s', hs', hchannel, poster, haccepts⟩ :=
            accepts_of_mem_acceptedQualities (List.mem_of_find?_eq_some hitem)
          have hmessageId : s'.messageId = row.archiveMessageId :=
            (messageId_of_accepts haccepts).symm.trans hid
          have hfind : t.snapshot? movie.archiveChannelId row.archiveMessageId = some s' := by
            rw [← hchannel, ← hmessageId]
            exact KeyedTable.find?_of_mem hs'
          cases hs.symm.trans hfind
          exact not_fits_of_accepts haccepts hmessage hfits
        · exact hlong hfits
  · exact hlong hfits

/-- A poster with a long title leaves a movie that does not fit. -/
theorem not_fits_poster {group : ParsedMovieGroup}
    (hgroup : parsePoster parser message = some group)
    (hplace : (t.posterMovie? channelId message.messageId).isSome ∨
      t.attachedQuality? channelId message.messageId = none) (hmessage : ¬ TitlesFit message) :
    ∃ t' result, t.reconcileMessage parser channelId message = .ok (t', result) ∧
      ¬ t'.fitsColumns := by
  obtain ⟨hnew, hset⟩ := not_fits_of_parsePoster hgroup hmessage
  obtain ⟨poster, hposter, -⟩ := parsePoster_eq_some hgroup
  have hkind := mediaKind_of_detectPoster hposter
  cases hmovie : t.posterMovie? channelId message.messageId with
  -- the poster of a movie is written again
  | some movie =>
      rw [reconcileMessage, hmovie]
      refine ⟨(t.reconcilePosterEdit parser movie message).1,
        (t.reconcilePosterEdit parser movie message).2, rfl, ?_⟩
      have hmem : setPoster group movie ∈ (t.updateMovie movie.id (setPoster group)).movies :=
        mem_updateMovie (posterMovie?_eq_some hmovie).1
      rw [reconcilePosterEdit, if_neg (not_not.2 hkind), hgroup]
      exact not_fitsColumns_of_movie hmem (hset movie)
  -- a poster that is new adds a movie
  | none =>
      have hrow : t.attachedQuality? channelId message.messageId = none := by
        simpa [hmovie] using hplace
      rw [← posterMessageId_of_parsePoster hgroup] at hmovie
      refine ⟨(t.upsertPoster parser channelId group).1, (t.upsertPoster parser channelId group).2,
        ?_, ?_⟩
      · rw [posterMessageId_of_parsePoster hgroup] at hmovie
        simp only [reconcileMessage, hmovie, hrow, indexMessage, hkind, hgroup]
      · rw [upsertPoster_eq hmovie]
        cases hbefore : t.movieBefore? channelId group.posterMessageId with
        | none =>
            dsimp only
            rw [addPoster_eq_of_none hbefore]
            intro hfits
            exact hnew _ _ ((fitsColumns_iff.1 hfits).2.1 _
              (mem_insertMovie (KeyedTable.find?_freshKey _)))
        | some previous =>
            dsimp only
            rw [addPoster_eq hbefore]
            exact not_fitsColumns_of_movie (mem_insertMovie (KeyedTable.find?_freshKey _))
              (hnew _ _)

/-- A candidate with a long title that keeps its row leaves a row that does not fit. -/
theorem not_fits_attached (ht : t.Linked) {s : ArchiveMessageSnapshot}
    (hs : t.snapshot? channelId message.messageId = some s) (hsame : s.message = message)
    (hmessage : ¬ TitlesFit message) {row : MovieQuality} {parsed : ParsedQuality}
    (hposter : t.posterMovie? channelId message.messageId = none)
    (hrow : t.attachedQuality? channelId message.messageId = some row)
    (hmovie : t.movies.find? row.movieId = some movie)
    (hparsed : groupQuality? (t.parseMovieGroup parser movie (some message.messageId))
      message.messageId = some parsed)
    (hfree : parsed.quality ≠ row.quality → ∀ other ∈ t.qualities, other.movieId = movie.id →
      other.quality = parsed.quality → other.id = row.id) :
    ∃ t' result, t.reconcileMessage parser channelId message = .ok (t', result) ∧
      ¬ t'.fitsColumns := by
  obtain ⟨s', hs', poster, haccepts⟩ := accepts_of_groupQuality? hparsed
  have hmem := (attachedQuality?_eq_some hrow).1
  obtain ⟨movie', hmovie', hchannel, -⟩ := ht.rowMovie row hmem
  cases hmovie.symm.trans hmovie'
  rw [hchannel, (attachedQuality?_eq_some hrow).2.1] at hs'
  cases hs.symm.trans hs'
  rw [hsame] at haccepts
  have hkind : message.mediaKind = .video ∨ message.mediaKind = .document :=
    mediaKind_of_accepts haccepts
  have hother : ¬ (message.mediaKind ≠ .video && message.mediaKind ≠ .document) := by
    rcases hkind with hkind | hkind <;> simp [hkind]
  have hconflict : ¬ (parsed.quality ≠ row.quality && (t.qualities.rows.any fun other =>
      other.movieId = movie.id && other.quality = parsed.quality && other.id ≠ row.id)) := by
    intro hany
    simp only [ne_eq, decide_not, Bool.and_eq_true, Bool.not_eq_true', decide_eq_false_iff_not,
      List.any_eq_true, decide_eq_true_eq] at hany
    obtain ⟨hlabel, other, hmem', ⟨hmovie', hquality'⟩, hne⟩ := hany
    exact hne (hfree hlabel other hmem' hmovie' hquality')
  have hattached : t.attachedMovie? channelId message.messageId = some movie := by
    rw [attachedMovie?, hrow]
    exact hmovie
  refine ⟨(t.reconcileQualityEdit parser movie row message).1,
    (t.reconcileQualityEdit parser movie row message).2, ?_, ?_⟩
  · simp only [reconcileMessage, hposter, hrow, hattached]
  · rw [reconcileQualityEdit, if_neg hother]
    simp only [hparsed]
    rw [if_neg hconflict]
    have hs : (t.updateQuality row.id (setQualityColumns parsed)).snapshot? movie.archiveChannelId
        (setQualityColumns parsed row).archiveMessageId = some s := by
      have hplace : (setQualityColumns parsed row).archiveMessageId = message.messageId :=
        (attachedQuality?_eq_some hrow).2.2
      rw [hplace, hchannel, (attachedQuality?_eq_some hrow).2.1]
      exact hs
    exact not_fitsColumns_of_row (mem_updateQuality_self hmem)
      (not_fits_of_accepts haccepts hmessage) hs (hsame.symm ▸ hmessage)

/-- Indexing a new candidate with a long title raises. -/
theorem dataError_candidate {s : ArchiveMessageSnapshot}
    (hs : t.snapshot? channelId message.messageId = some s) (hsame : s.message = message)
    (hmessage : ¬ TitlesFit message) {parsed : ParsedQuality}
    (hposter : t.posterMovie? channelId message.messageId = none)
    (hrow : t.attachedQuality? channelId message.messageId = none)
    (hquality : (extractQuality (message.caption.getD [])).isSome)
    (hmovie : t.movieBefore? channelId message.messageId = some movie)
    (hparsed : groupQuality? (t.parseMovieGroup parser movie (some message.messageId))
      message.messageId = some parsed) :
    t.reconcileMessage parser channelId message = .error .dataError := by
  obtain ⟨s', hs', poster, haccepts⟩ := accepts_of_groupQuality? hparsed
  rw [(movieBefore?_eq_some hmovie).2.1] at hs'
  cases hs.symm.trans hs'
  rw [hsame] at haccepts
  have hkind : message.mediaKind = .video ∨ message.mediaKind = .document :=
    mediaKind_of_accepts haccepts
  have hlong : (newQuality 0 movie.id channelId parsed).fits = false := by
    rw [← Bool.not_eq_true]
    intro hfits
    obtain ⟨-, hraw, hnormalized, -⟩ := row_fits_iff.1 hfits
    exact not_fits_of_accepts haccepts hmessage ⟨hraw, hnormalized⟩
  obtain ⟨group, hgroup, hfind⟩ := Option.bind_eq_some_iff.1 hparsed
  simp only [reconcileMessage, hposter, hrow, indexMessage_file hkind, hquality, if_true,
    upsertQuality, hmovie, hgroup, hfind, hlong, Bool.not_false]

/-- **A long title is not written**: indexing raises, or leaves tables that do not fit. -/
theorem TitleWritten.not_fits (h : TitleWritten parser t channelId message) (ht : t.Linked)
    {s : ArchiveMessageSnapshot} (hs : t.snapshot? channelId message.messageId = some s)
    (hsame : s.message = message) (hmessage : ¬ TitlesFit message) :
    t.reconcileMessage parser channelId message = .error .dataError ∨
      ∃ t' result, t.reconcileMessage parser channelId message = .ok (t', result) ∧
        ¬ t'.fitsColumns := by
  cases h with
  | poster group hgroup hplace => exact .inr (not_fits_poster hgroup hplace hmessage)
  | attached row movie parsed hposter hrow hmovie hparsed hfree =>
      exact .inr (not_fits_attached ht hs hsame hmessage hposter hrow hmovie hparsed hfree)
  | candidate movie parsed hposter hrow hquality hmovie hparsed =>
      exact .inl (dataError_candidate hs hsame hmessage hposter hrow hquality hmovie hparsed)

/-! ### Redelivery -/

/-- The call is refused for a value that does not fit, and again whenever it is repeated. -/
def Poisons (parser : ArchiveParser) (t : ArchiveTables) (c : ArchiveCall) : Prop :=
  ∀ n, (Transition.run (call parser) t (List.replicate n c)).outcome parser c = .error .dataError

/-- A refused call changes nothing, so that it is refused again. -/
theorem poisons_of_outcome {c : ArchiveCall} (h : t.outcome parser c = .error .dataError) :
    Poisons parser t c := by
  have hrun : ∀ n, Transition.run (call parser) t (List.replicate n c) = t := by
    intro n
    induction n with
    | zero => rfl
    | succ n ih => rw [List.replicate_succ, Transition.run_cons, call_of_outcome_error h, ih]
  intro n
  rw [hrun n]
  exact h

/-- **A long title is refused.** -/
theorem WritesTitle.outcome_eq {c : ArchiveCall} (h : WritesTitle parser t c) (ht : t.Sound)
    (hmessage : ¬ TitlesFit c.message) : t.outcome parser c = .error .dataError := by
  have houtcome : CallOutcome parser t c (t.outcome parser c) := ht.toLinked.callOutcome c
  obtain ⟨-, heq⟩ := houtcome.eq_of_recorded h.recorded
  have hs : (t.recordMessage c.channelId c.message).snapshot? c.channelId c.message.messageId =
      some (t.recordedSnapshot c.channelId c.message) := by
    rw [snapshot?_recordMessage, if_pos rfl]
  rcases h.written.not_fits ht.toLinked.recordMessage hs message_recordedSnapshot hmessage with
    herror | ⟨t', result, hok, hlong⟩
  · rw [heq, herror]
  · rw [heq, hok]
    exact if_pos (by simpa using hlong)

variable (parser) in
/-- **A post poisons the queue exactly when its title is too long.**  After a run of calls whose
messages have short titles, a call with a short title is refused for no value but a message id or a
snapshot version; and a call that writes the title of its message is committed, with rows that fit,
exactly when the title is short, and otherwise refused as often as it comes. -/
theorem poisons_iff_long_title (hdigits : DecimalDigits) {calls : List ArchiveCall}
    (hcalls : ∀ c ∈ calls, c.message.ShortTitle) (c : ArchiveCall) :
    let t := Transition.run (call parser) empty calls
    (c.message.ShortTitle → t.outcome parser c = .error .dataError →
        bigintMax < c.message.messageId ∨
          integerMax ≤ t.snapshotVersion c.channelId c.message.messageId) ∧
      (WritesTitle parser t c → t.snapshotVersion c.channelId c.message.messageId < integerMax →
        ((∃ t' result, t.outcome parser c = .ok (t', result) ∧ t'.fitsColumns) ↔
            c.message.ShortTitle) ∧
          (Poisons parser t c ↔ ¬ c.message.ShortTitle)) := by
  intro t
  have ht : t.Sound := run_sound calls
  have htitles : t.TitlesRecorded :=
    run_titlesRecorded fun c' hc' => shortTitle_iff.1 (hcalls c' hc')
  have hfits : t.fitsColumns :=
    Transition.run_invariant (I := fun t : ArchiveTables => t.fitsColumns)
      (fun _ c ht => fitsColumns_call ht c) (by decide) calls
  refine ⟨fun hshort herror => ?_, fun hwrites hversion => ?_⟩
  · by_contra hnumbers
    obtain ⟨hid, hversion⟩ := not_or.1 hnumbers
    exact ht.outcome_ne_dataError hdigits hfits htitles (shortTitle_iff.1 hshort)
      (not_le.1 hversion) (not_lt.1 hid) herror
  · have hlong : ¬ c.message.ShortTitle → t.outcome parser c = .error .dataError := fun hlong =>
      hwrites.outcome_eq ht fun hfit => hlong (shortTitle_iff.2 hfit)
    have hshort : c.message.ShortTitle →
        ∃ t' result, t.outcome parser c = .ok (t', result) ∧ t'.fitsColumns := fun hshort =>
      ht.committed hdigits hfits htitles (shortTitle_iff.1 hshort) hversion hwrites.recorded
    constructor
    · refine ⟨fun ⟨t', result, hok, _⟩ => ?_, hshort⟩
      by_contra hnot
      cases hok.symm.trans (hlong hnot)
    · refine ⟨fun hpoisons hnot => ?_, fun hnot => poisons_of_outcome (hlong hnot)⟩
      obtain ⟨t', result, hok, -⟩ := hshort hnot
      cases hok.symm.trans (hpoisons 0)

end

/-! ### A title of 513 letters -/

section

attribute [local instance] UnicodeData.asciiArabic

/-- A poster is published in the configured channel. -/
def publishPoster (title : Str) : ArchiveCall :=
  .ingest (some (.int 7)) 7 (posterVersion title none)

/-- The error of a call. -/
def refusal (t : ArchiveTables) (c : ArchiveCall) : Option DbError :=
  match t.outcome {} c with
  | .error error => some error
  | .ok _ => none

/-- The first post of a channel is a poster with a title of 513 letters: it is refused as often as
it comes. -/
theorem poster_of_513_letters_poisons :
    ((detectPoster (posterVersion (List.replicate 513 'x') none)).any fun poster =>
        poster.displayTitle.length = 513) ∧
      Poisons {} empty (publishPoster (List.replicate 513 'x')) := by
  refine ⟨by decide +kernel, ?_⟩
  have hrefusal : empty.refusal (publishPoster (List.replicate 513 'x')) = some .dataError := by
    decide +kernel
  refine poisons_of_outcome ?_
  unfold refusal at hrefusal
  split at hrefusal
  · next error herror => rw [herror, Option.some.inj hrefusal]
  · cases hrefusal

/-- A poster with a short title is committed, with rows that fit. -/
theorem poisons_iff_long_title_short :
    ∃ t' result, empty.outcome {} (publishPoster "Up".toList) = .ok (t', result) ∧
      t'.fitsColumns := by
  have hgroup : (parsePoster {} (posterVersion "Up".toList none)).isSome := by decide +kernel
  obtain ⟨group, hgroup⟩ := Option.isSome_iff_exists.1 hgroup
  have hwrites : WritesTitle {} empty (publishPoster "Up".toList) :=
    ⟨by decide +kernel, .poster group hgroup (.inr (by decide +kernel))⟩
  have hcalls : ∀ c ∈ ([] : List ArchiveCall), c.message.ShortTitle := fun c hc => by cases hc
  refine ((poisons_iff_long_title {} UnicodeData.decimalDigits_asciiArabic hcalls
    (publishPoster "Up".toList)).2 hwrites (by decide +kernel)).1.2 ?_
  rw [shortTitle_iff]
  decide +kernel

end

end ArchiveTables

end CineGate
