/-
**A channel that was only ever ingested holds what the parser says.**

The deliveries of a channel may repeat messages; what counts is each message as it was first seen.
One delivery either repeats a recorded message and changes nothing, or records a new last message
and brings the tables in step with the longer stream.

* `firstSeen` — the stream that a list of deliveries amounts to;
* `ArchiveTables.InStep.ingest`, `ArchiveTables.call_ingest_of_seen` — one delivery;
* `ArchiveTables.ingested_eq_parsed` — the tables after a list of deliveries.
-/

import CineGate.BatchIndexing
import CineGate.JustifiedMovies

set_option relaxedAutoImplicit false
set_option autoImplicit false

namespace CineGate

/-! ### Deliveries -/

/-- A message whose id is known adds nothing to the stream. -/
def observe (ms : List ArchiveMessage) (message : ArchiveMessage) : List ArchiveMessage :=
  if message.messageId ∈ ms.map ArchiveMessage.messageId then ms else ms ++ [message]

/-- The stream that the deliveries amount to: every message as it was first seen. -/
def firstSeen (deliveries : List ArchiveMessage) : List ArchiveMessage :=
  deliveries.foldl observe []

theorem firstSeen_snoc (deliveries : List ArchiveMessage) (message : ArchiveMessage) :
    firstSeen (deliveries ++ [message]) = observe (firstSeen deliveries) message := by
  rw [firstSeen, List.foldl_append]
  rfl

theorem firstSeen_prefix (deliveries : List ArchiveMessage) (message : ArchiveMessage) :
    firstSeen deliveries <+: firstSeen (deliveries ++ [message]) := by
  rw [firstSeen_snoc, observe]
  split
  · exact List.prefix_rfl
  · exact List.prefix_append _ _

namespace ArchiveTables

variable {t t' : ArchiveTables} {channelId : ℤ} {movie : Movie} {ms : List ArchiveMessage}
  {message : ArchiveMessage} {configured : Option SettingValue}

section

variable [UnicodeData] {parser : ArchiveParser}

/-- The whole caption of a candidate shows a resolution, not only the part that the parser reads. -/
def CaptionShowsQuality (message : ArchiveMessage) : Prop :=
  (detectQuality message).isSome → (extractQuality (message.caption.getD [])).isSome

/-! ### One delivery -/

theorem detectPoster_eq_none_of_ne (h : message.mediaKind ≠ .photo) :
    detectPoster message = none := by
  simp [detectPoster, h]

theorem detectQuality_eq_none (h : message.mediaKind ≠ .video)
    (h' : message.mediaKind ≠ .document) :
    detectQuality message = none := by
  simp [detectQuality, h, h']

/-- **Indexing a new last message** goes through and brings the tables in step. -/
theorem Received.indexMessage (hdigits : DecimalDigits) (h : Received parser t channelId ms message)
    (htitles : TitlesFit message) (hshows : CaptionShowsQuality message) :
    ∃ t' result, t.indexMessage parser channelId message = .ok (t', result) ∧
      t'.InStep parser channelId (ms ++ [message]) := by
  -- the indexer asks for a resolution in the caption first, the parser for a candidate
  have hcandidate : (extractQuality (message.caption.getD [])) = none →
      detectQuality message = none := by
    intro hnone
    cases hquality : detectQuality message with
    | none => rfl
    | some quality =>
        have hsome := hshows (by rw [hquality]; rfl)
        rw [hnone] at hsome
        cases hsome
  have hfile : (message.mediaKind = .video ∨ message.mediaKind = .document) →
      ∃ t' result, t.indexMessage parser channelId message = .ok (t', result) ∧
        t'.InStep parser channelId (ms ++ [message]) := by
    intro hkind
    have hposter : detectPoster message = none := detectPoster_eq_none hkind
    rw [indexMessage_file hkind]
    split
    · exact h.upsertQuality hdigits hposter htitles
    · -- without a resolution the indexer only closes the window, and the parser takes nothing
      next hnone =>
        have hnone : extractQuality (message.caption.getD []) = none := by simpa using hnone
        exact ⟨_, _, rfl, h.reconcileBoundary hposter (hcandidate hnone)⟩
  cases hkind : message.mediaKind with
  | photo =>
      rw [ArchiveTables.indexMessage, hkind]
      dsimp only
      cases hposter : detectPoster message with
      | none =>
          have hparse : parsePoster parser message = none := by
            cases hparse : parsePoster parser message with
            | none => rfl
            | some group =>
                obtain ⟨poster, hsome, -⟩ := parsePoster_eq_some hparse
                rw [hposter] at hsome
                cases hsome
          rw [hparse]
          have hquality : detectQuality message = none :=
            detectQuality_eq_none (by simp [hkind]) (by simp [hkind])
          exact ⟨_, _, rfl, h.reconcileBoundary hposter hquality⟩
      | some poster =>
          rw [parsePoster_of_detectPoster hposter]
          exact ⟨_, _, rfl, h.upsertPoster hdigits hposter htitles⟩
  | video => exact hfile (.inl hkind)
  | document => exact hfile (.inr hkind)
  | other =>
      rw [ArchiveTables.indexMessage, hkind]
      have hposter : detectPoster message = none := detectPoster_eq_none_of_ne (by simp [hkind])
      have hquality : detectQuality message = none :=
        detectQuality_eq_none (by simp [hkind]) (by simp [hkind])
      exact ⟨_, _, rfl, h.reconcileBoundary hposter hquality⟩

/-- **A new last message** commits, and the tables are in step with the longer stream. -/
theorem InStep.ingest (hdigits : DecimalDigits) (h : t.InStep parser channelId ms)
    (hconfigured : getInt configured = .ok (some channelId))
    (hasc : AscendingFrom 0 (ms ++ [message]))
    (hbound : ∀ m ∈ ms ++ [message], m.messageId < bigintMax) (htitles : TitlesFit message)
    (hshows : CaptionShowsQuality message) :
    (t.call parser (.ingest configured channelId message)).InStep parser channelId
      (ms ++ [message]) := by
  have hnewer := newer_of_ascending hasc
  have hunseen : t.snapshot? channelId message.messageId = none :=
    h.stream.snapshot?_eq_none fun m hm => (hnewer m hm).ne
  have hid : ¬bigintMax < message.messageId :=
    not_lt.2 (hbound message (List.mem_append_right _ List.mem_cons_self)).le
  have hrecord : t.recordSnapshot parser channelId message false none =
      (t.recordMessage channelId message, true) := by
    rw [recordSnapshot, ArchiveTables.recordMessage, hunseen]
    rfl
  obtain ⟨t', result, hindex, hstep⟩ :=
    (h.recordMessage hasc hbound).indexMessage hdigits htitles hshows
  have hcommit : t'.commit result = .ok (t', result) := commit_eq_ok hstep.fits hstep.keys
  have hingest : t.ingest parser configured channelId message = .ok (t', result) := by
    simp only [ArchiveTables.ingest, indexTransaction, hconfigured, ne_eq, not_true_eq_false,
      if_false, hid, hrecord, if_true, hindex, hcommit]
  simp only [call, hingest]
  exact hstep

/-- A message that has been recorded is not indexed again by a delivery. -/
theorem recordSnapshot_of_seen (hseen : (t.snapshot? channelId message.messageId).isSome) :
    t.recordSnapshot parser channelId message false none = (t, false) := by
  obtain ⟨s, hs⟩ := Option.isSome_iff_exists.1 hseen
  rw [recordSnapshot, hs]
  rfl

/-- **A repeated delivery** leaves the tables alone. -/
theorem call_ingest_of_seen (hseen : (t.snapshot? channelId message.messageId).isSome) :
    t.call parser (.ingest configured channelId message) = t := by
  unfold call
  dsimp only
  split
  · next t' result hok =>
      unfold ArchiveTables.ingest indexTransaction at hok
      split at hok
      · cases hok
      · split at hok
        · cases hok
          rfl
        · split at hok
          · cases hok
          · rw [recordSnapshot_of_seen hseen] at hok
            exact (uniqueKeys_of_commit hok).1
  · rfl

/-! ### A list of deliveries -/

/-- A sound database in which the channel is still empty is in step with the empty stream. -/
theorem inStep_nil (hsound : t.Sound) (hfits : t.fitsColumns)
    (hempty : t.channelSnapshots channelId = []) : t.InStep parser channelId [] := by
  have hmovies : t.channelMovies channelId = [] := by
    refine List.eq_nil_iff_forall_not_mem.2 fun movie hmovie => ?_
    obtain ⟨hmem, hchannel⟩ := mem_channelMovies.1 hmovie
    have hrecorded := hsound.posterRecorded movie hmem
    obtain ⟨s, hs⟩ := Option.isSome_iff_exists.1 hrecorded
    have hkey : s.key = toLex (movie.archiveChannelId, movie.posterMessageId) :=
      KeyedTable.key_of_find? hs
    have hs_channel : s.archiveChannelId = movie.archiveChannelId :=
      (Prod.ext_iff.1 (toLex.injective hkey)).1
    have hs_mem : s ∈ t.channelSnapshots channelId :=
      mem_channelSnapshots.2 ⟨KeyedTable.mem_of_find? hs, hs_channel.trans hchannel⟩
    rw [hempty] at hs_mem
    cases hs_mem
  refine ⟨⟨hsound.toUniqueKeys, hsound.toLinked, hfits, hempty, ?_⟩, fun movie hmovie => ?_⟩
  · rw [hmovies]
    exact .nil
  · rw [hmovies] at hmovie
    cases hmovie

/-- **Deliveries keep the tables in step** with what was first seen. -/
theorem InStep.run (hdigits : DecimalDigits) (h : t.InStep parser channelId [])
    (hconfigured : getInt configured = .ok (some channelId)) {deliveries : List ArchiveMessage}
    (hasc : AscendingFrom 0 (firstSeen deliveries))
    (hbound : ∀ m ∈ firstSeen deliveries, m.messageId < bigintMax)
    (htitles : ∀ m ∈ firstSeen deliveries, TitlesFit m)
    (hshows : ∀ m ∈ firstSeen deliveries, CaptionShowsQuality m) :
    (Transition.run (call parser) t (deliveries.map (.ingest configured channelId))).InStep parser
      channelId (firstSeen deliveries) := by
  induction deliveries using List.reverseRecOn with
  | nil => exact h
  | append_singleton deliveries message ih =>
      have hpre := firstSeen_prefix deliveries message
      have hsub : (0 :: (firstSeen deliveries).map ArchiveMessage.messageId).Sublist
          (0 :: (firstSeen (deliveries ++ [message])).map ArchiveMessage.messageId) :=
        (hpre.sublist.map _).cons_cons 0
      have hstep := ih (hasc.sublist hsub) (fun m hm => hbound m (hpre.mem hm))
        (fun m hm => htitles m (hpre.mem hm)) fun m hm => hshows m (hpre.mem hm)
      rw [List.map_append, List.map_singleton, Transition.run_snoc]
      rw [firstSeen_snoc, observe] at hasc hbound htitles hshows ⊢
      split at hasc
      · next hseen =>
          obtain ⟨m, hm, hid⟩ := List.mem_map.1 hseen
          rw [if_pos hseen, call_ingest_of_seen (hid ▸ hstep.stream.isSome_snapshot? hm)]
          exact hstep
      · next hnew =>
          rw [if_neg hnew] at hbound htitles hshows ⊢
          have hlast : message ∈ firstSeen deliveries ++ [message] :=
            List.mem_append_right _ List.mem_cons_self
          exact hstep.ingest hdigits hconfigured hasc hbound (htitles message hlast)
            (hshows message hlast)

/-- The movie and its rows are what the parser says of a group. -/
structure Reflects (t : ArchiveTables) (movie : Movie) (group : ParsedMovieGroup) : Prop where
  posterMessageId : movie.posterMessageId = group.posterMessageId
  displayTitle : movie.displayTitle = group.displayTitle
  normalizedTitle : movie.normalizedTitle = group.normalizedTitle
  year : movie.year = group.year
  parserStyle : movie.parserStyle = group.parserStyle
  parserConfidence : movie.parserConfidence = group.posterConfidence
  qualities : (t.movieItems movie.id).Perm group.qualities
  status : movie.status = .indexed ↔ group.status = .indexed

/-- A decided movie that mirrors a window reflects the group of the window. -/
theorem Mirrors.reflects {window : PosterCandidate × List ArchiveMessage}
    (h : t.Mirrors parser movie window) (hdecided : t.Decided movie) :
    t.Reflects movie (parser.groupOf none window) := by
  have hcolumns := h.columns
  refine ⟨?_, ?_, ?_, ?_, ?_, ?_, ?_, ?_⟩
  · rw [h.posterMessageId, posterMessageId_groupOf]
  · rw [← hcolumns]; rfl
  · rw [← hcolumns]; rfl
  · rw [← hcolumns]; rfl
  · rw [← hcolumns]; rfl
  · rw [← hcolumns]; rfl
  · rw [h.items]
    exact (parser.qualities_groupOf window).symm
  · rw [parser.status_groupOf, ← h.items]
    exact hdecided

/-- Tables in step with a stream reflect what the parser reads from it. -/
theorem InStep.parsed (h : t.InStep parser channelId ms) (hasc : AscendingFrom 0 ms) :
    ∃ groups, parser.parse ms = .ok groups ∧
      List.Forall₂ t.Reflects (t.channelMovies channelId) groups ∧
        ∀ row ∈ t.qualities, row.archiveChannelId = channelId →
          ∃ movie ∈ t.channelMovies channelId, movie.id = row.movieId := by
  refine ⟨_, parser.parse_eq hasc, ?_, fun row hrow hchannel => ?_⟩
  · rw [List.forall₂_map_right_iff]
    have hboth := (List.forall₂_and_left _ _).2 ⟨h.decided, h.movies⟩
    exact hboth.imp fun movie window h => h.2.reflects h.1
  · obtain ⟨movie, hmovie, hmovie_channel, -⟩ := h.linked.rowMovie row hrow
    exact ⟨movie,
      mem_channelMovies.2 ⟨KeyedTable.mem_of_find? hmovie, hmovie_channel.trans hchannel⟩,
      KeyedTable.key_of_find? hmovie⟩

variable (parser) in
/-- **Ingesting message by message is parsing the stream**: a channel that is still empty holds,
after any deliveries of an ascending stream, one movie for each group of the parsed stream, with the
columns and the rows of the group, and indexed exactly when the group is. -/
theorem ingested_eq_parsed (hdigits : DecimalDigits) (calls : List ArchiveCall)
    (hempty : (Transition.run (call parser) empty calls).channelSnapshots channelId = [])
    (hconfigured : getInt configured = .ok (some channelId)) (deliveries : List ArchiveMessage)
    (hasc : AscendingFrom 0 (firstSeen deliveries))
    (hbound : ∀ m ∈ firstSeen deliveries, m.messageId < bigintMax)
    (htitles : ∀ m ∈ firstSeen deliveries, TitlesFit m)
    (hshows : ∀ m ∈ firstSeen deliveries, CaptionShowsQuality m) :
    let t := Transition.run (call parser) empty
      (calls ++ deliveries.map (.ingest configured channelId))
    ∃ groups, parser.parse (firstSeen deliveries) = .ok groups ∧
      List.Forall₂ t.Reflects (t.channelMovies channelId) groups ∧
        ∀ row ∈ t.qualities, row.archiveChannelId = channelId →
          ∃ movie ∈ t.channelMovies channelId, movie.id = row.movieId := by
  have hsound : (Transition.run (call parser) empty calls).Sound :=
    Transition.run_invariant (fun _ c ht => ht.call c) empty_sound calls
  have hfits : (Transition.run (call parser) empty calls).fitsColumns :=
    Transition.run_invariant (I := fun t : ArchiveTables => t.fitsColumns)
      (fun _ c ht => fitsColumns_call ht c)
      (by decide) calls
  intro t
  have ht : t.InStep parser channelId (firstSeen deliveries) := by
    have hstart : (Transition.run (call parser) empty calls).InStep parser channelId [] :=
      inStep_nil hsound hfits hempty
    have hrun := hstart.run hdigits hconfigured hasc hbound htitles hshows
    rw [← Transition.run_append] at hrun
    exact hrun
  exact ht.parsed hasc

/-- Without rows there is nothing that a group with accepted messages could be reflected by. -/
theorem not_reflects (hrows : t.qualities.rows = []) (haccepted : acceptedMessages parser ms ≠ []) :
    ¬∃ groups, parser.parse ms = .ok groups ∧
      List.Forall₂ t.Reflects (t.channelMovies channelId) groups := by
  rintro ⟨groups, hparse, hreflects⟩
  refine haccepted ?_
  rw [acceptedMessages, hparse]
  refine List.flatMap_eq_nil_iff.2 fun group hgroup => ?_
  obtain ⟨movie, -, hgroup⟩ := forall₂_mem_left hreflects.flip hgroup
  have hitems : t.movieItems movie.id = [] := by simp [movieItems, movieQualities, hrows]
  have hnone : group.qualities = [] := List.nil_perm.1 (hitems ▸ hgroup.qualities)
  rw [hnone, List.map_nil]

end

/-! ### Streams on the edge -/

section

attribute [local instance] UnicodeData.asciiArabic

instance : Decidable (TitlesFit message) :=
  decidable_of_iff ((∀ poster ∈ detectPoster message,
      poster.displayTitle.length ≤ 512 ∧ poster.normalizedTitle.length ≤ 512) ∧
    ∀ quality ∈ detectQuality message,
      quality.rawTitle.all (·.length ≤ 512) ∧ quality.normalizedTitle.all (·.length ≤ 512))
    ⟨fun h => ⟨h.1, h.2⟩, fun h => ⟨h.1, h.2⟩⟩

instance : Decidable (AscendingFrom 0 ms) :=
  inferInstanceAs (Decidable ((0 :: ms.map ArchiveMessage.messageId).Pairwise (· < ·)))

instance : Decidable (CaptionShowsQuality message) :=
  inferInstanceAs (Decidable (_ → _))

/-- The snapshots of a movie without a successor are read up to the largest `bigint`,
exclusively. -/
def lastBigint : List ArchiveMessage :=
  [samplePoster 1, sampleVideo 9223372036854775807 "Up 720p".toList]

/-- The part that the parser reads ends within `720px`, which is no resolution. -/
def cutCaption : List ArchiveMessage :=
  [samplePoster 1, sampleVideo 2 ("Up\n".toList ++ List.replicate 8184 'x' ++ " 720px".toList)]

/-- Ascending messages whose titles fit are ingested, and the tables are not what the parser
says. -/
def Unreflected (ms : List ArchiveMessage) : Prop :=
  AscendingFrom 0 ms ∧ (∀ m ∈ ms, TitlesFit m) ∧
    ¬∃ groups, ArchiveParser.parse {} ms = .ok groups ∧
      List.Forall₂ (Transition.run (call {}) empty (publish ms)).Reflects
        ((Transition.run (call {}) empty (publish ms)).channelMovies 7) groups

set_option maxRecDepth 100000 in
/-- The parser accepts a file that the tables do not get. -/
theorem ingested_ne_parsed : Unreflected lastBigint ∧ Unreflected cutCaption :=
  ⟨⟨by decide, by decide +kernel, not_reflects (by decide +kernel) (by decide +kernel)⟩,
    ⟨by decide, by decide +kernel, not_reflects (by decide +kernel) (by decide +kernel)⟩⟩

/-- A film with two files. -/
def film : List ArchiveMessage :=
  [samplePoster 1, sampleVideo 2 "Up 720p".toList, sampleVideo 3 "Up 1080p".toList]

/-- The poster of the film is delivered once more at the end. -/
theorem ingested_eq_parsed_film :
    ∃ groups, ArchiveParser.parse {} film = .ok groups ∧
      List.Forall₂ (Transition.run (call {}) empty (publish (film ++ [samplePoster 1]))).Reflects
        ((Transition.run (call {}) empty (publish (film ++ [samplePoster 1]))).channelMovies 7)
        groups := by
  have hdigits : DecimalDigits := UnicodeData.decimalDigits_asciiArabic
  have hfirst : firstSeen (film ++ [samplePoster 1]) = film := rfl
  obtain ⟨groups, hparse, hreflects, -⟩ : ∃ groups, ArchiveParser.parse {} film = .ok groups ∧
      List.Forall₂ (Transition.run (call {}) empty (publish (film ++ [samplePoster 1]))).Reflects
        ((Transition.run (call {}) empty (publish (film ++ [samplePoster 1]))).channelMovies 7)
        groups ∧ _ :=
    ingested_eq_parsed {} hdigits [] rfl rfl (film ++ [samplePoster 1]) (by rw [hfirst]; decide)
      (by rw [hfirst]; decide) (by rw [hfirst]; decide +kernel) (by rw [hfirst]; decide +kernel)
  exact ⟨groups, hparse, hreflects⟩

end

end ArchiveTables

end CineGate
