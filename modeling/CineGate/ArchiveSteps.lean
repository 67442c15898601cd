/-
**What a call of the indexer can do.**

A call of `ingest` or `reconcile_edit` leaves the tables, marks a snapshot as conflicted, or records
the message and indexes it.  Indexing goes one of the ways of `IndexStep`; between them they list
every exit of the two entry points with what is known there.

* `ArchiveCall`, `ArchiveTables.call` — the calls and the tables they leave;
* `ArchiveTables.Linked` — posters and attached messages are recorded, and are different messages;
* `ArchiveTables.IndexStep`, `ArchiveTables.CallStep` — the ways;
* `ArchiveTables.Linked.callStep` — a call takes one of them.
-/

import CineGate.ArchiveIndexer
import CineGate.ArchiveWindows

set_option relaxedAutoImplicit false
set_option autoImplicit false

namespace CineGate

/-- A call of one of the two entry points, with the channel setting it finds. -/
inductive ArchiveCall
  | ingest (configured : Option SettingValue) (channelId : ℤ) (message : ArchiveMessage)
  | reconcileEdit (configured : Option SettingValue) (channelId : ℤ) (message : ArchiveMessage)
      (expectedSnapshotVersion : Option ℕ)

namespace ArchiveCall

def channelId : ArchiveCall → ℤ
  | ingest _ channelId _ | reconcileEdit _ channelId _ _ => channelId

def message : ArchiveCall → ArchiveMessage
  | ingest _ _ message | reconcileEdit _ _ message _ => message

def configured : ArchiveCall → Option SettingValue
  | ingest configured _ _ | reconcileEdit configured _ _ _ => configured

end ArchiveCall

/-- What becomes of the snapshot of a message. -/
inductive SnapshotFate
  | kept
  | conflicted
  | recorded
deriving DecidableEq, Repr

namespace ArchiveTables

/-- The decision of `_record_snapshot`. -/
def snapshotFate (t : ArchiveTables) (channelId : ℤ) (message : ArchiveMessage) (reconcile : Bool)
    (expectedVersion : Option ℕ) : SnapshotFate :=
  let snapshot := t.snapshot? channelId message.messageId
  if expectedVersion.any fun v => v ≠ (snapshot.map ArchiveMessageSnapshot.version).getD 0 then
    .kept
  else
    match snapshot with
    | none => .recorded
    | some s =>
        if !reconcile then .kept
        else
          match s.editedAt with
          | none => .recorded
          | some recorded =>
              match message.editedAt with
              | none => .kept
              | some edited =>
                  if edited < recorded then .kept
                  else if edited = recorded && expectedVersion.isNone then
                    if (message.mediaKind, message.caption) ≠ (s.mediaKind, s.caption) then
                      .conflicted
                    else .kept
                  else .recorded

end ArchiveTables

namespace ArchiveCall

/-- What the call does to the snapshot of its message, unless its transaction is undone. -/
def fate (t : ArchiveTables) (c : ArchiveCall) : SnapshotFate :=
  match getInt c.configured with
  | .error _ => .kept
  | .ok configuredId =>
      if configuredId ≠ some c.channelId then .kept
      else if bigintMax < c.message.messageId then .kept
      else
        match c with
        | ingest _ channelId message => t.snapshotFate channelId message false none
        | reconcileEdit _ channelId message expectedSnapshotVersion =>
            t.snapshotFate channelId message true expectedSnapshotVersion

end ArchiveCall

namespace ArchiveTables

section

variable [UnicodeData] (parser : ArchiveParser)

/-- What a call returns or raises. -/
def outcome (t : ArchiveTables) : ArchiveCall → Except DbError (ArchiveTables × ArchiveIndexResult)
  | .ingest configured channelId message => t.ingest parser configured channelId message
  | .reconcileEdit configured channelId message expectedSnapshotVersion =>
      t.reconcileEdit parser configured channelId message expectedSnapshotVersion

/-- The tables after a call: those of before when the transaction was undone. -/
def call (t : ArchiveTables) (c : ArchiveCall) : ArchiveTables :=
  let result := match c with
    | .ingest configured channelId message => t.ingest parser configured channelId message
    | .reconcileEdit configured channelId message expectedSnapshotVersion =>
        t.reconcileEdit parser configured channelId message expectedSnapshotVersion
  match result with
  | .ok (t', _) => t'
  | .error _ => t

end

/-! ### Links between the tables -/

/-- Posters and attached messages are recorded and are different messages; a row belongs to a movie
of its channel whose poster precedes its message. -/
structure Linked (t : ArchiveTables) : Prop where
  posterRecorded : ∀ movie ∈ t.movies,
    (t.snapshot? movie.archiveChannelId movie.posterMessageId).isSome
  rowRecorded : ∀ row ∈ t.qualities, (t.snapshot? row.archiveChannelId row.archiveMessageId).isSome
  rowMovie : ∀ row ∈ t.qualities, ∃ movie, t.movies.find? row.movieId = some movie ∧
    movie.archiveChannelId = row.archiveChannelId ∧ movie.posterMessageId < row.archiveMessageId
  disjoint : ∀ row ∈ t.qualities, ∀ movie ∈ t.movies,
    movie.archiveChannelId = row.archiveChannelId → movie.posterMessageId ≠ row.archiveMessageId

/-- The unique constraints of the three tables. -/
structure UniqueKeys (t : ArchiveTables) : Prop where
  poster : ∀ movie ∈ t.movies, ∀ movie' ∈ t.movies,
    movie.archiveChannelId = movie'.archiveChannelId →
    movie.posterMessageId = movie'.posterMessageId → movie = movie'
  message : ∀ row ∈ t.qualities, ∀ row' ∈ t.qualities,
    row.archiveChannelId = row'.archiveChannelId →
    row.archiveMessageId = row'.archiveMessageId → row = row'
  quality : ∀ row ∈ t.qualities, ∀ row' ∈ t.qualities, row.movieId = row'.movieId →
    row.quality = row'.quality → row = row'

/-- A committed transaction leaves the constraints in force. -/
theorem uniqueKeys_of_commit {α : Type} {t t' : ArchiveTables} {result result' : α}
    (h : t.commit result = .ok (t', result')) : t' = t ∧ t.UniqueKeys := by
  unfold commit at h
  split at h
  · cases h
  · split at h
    · next hkeys =>
        cases h
        simp only [Bool.and_eq_true, uqMoviesArchivePoster, uqMovieQualitiesArchiveMessage,
          uqMovieQualitiesMovieQuality, decide_eq_true_eq] at hkeys
        obtain ⟨⟨hposter, hmessage⟩, hquality⟩ := hkeys
        exact ⟨rfl, fun _ ha _ hb h h' => List.inj_on_of_nodup_map hposter ha hb (Prod.ext h h'),
          fun _ ha _ hb h h' => List.inj_on_of_nodup_map hmessage ha hb (Prod.ext h h'),
          fun _ ha _ hb h h' => List.inj_on_of_nodup_map hquality ha hb (Prod.ext h h')⟩
    · cases h

/-! ### Searches -/

section Searches

variable {t : ArchiveTables} {channelId : ℤ} {messageId : ℕ}

theorem posterMovie?_eq_some {movie : Movie} (h : t.posterMovie? channelId messageId = some movie) :
    movie ∈ t.movies ∧ movie.archiveChannelId = channelId ∧ movie.posterMessageId = messageId := by
  have hfound := List.find?_some h
  simp only [Bool.and_eq_true, decide_eq_true_eq] at hfound
  exact ⟨List.mem_of_find?_eq_some h, hfound⟩

theorem posterMovie?_eq_none (h : t.posterMovie? channelId messageId = none) :
    ∀ movie ∈ t.movies, movie.archiveChannelId = channelId → movie.posterMessageId ≠ messageId := by
  intro movie hmem hchannel hid
  have hnot := List.find?_eq_none.1 h movie hmem
  simp [hchannel, hid] at hnot

theorem attachedQuality?_eq_some {row : MovieQuality}
    (h : t.attachedQuality? channelId messageId = some row) :
    row ∈ t.qualities ∧ row.archiveChannelId = channelId ∧ row.archiveMessageId = messageId := by
  have hfound := List.find?_some h
  simp only [Bool.and_eq_true, decide_eq_true_eq] at hfound
  exact ⟨List.mem_of_find?_eq_some h, hfound⟩

theorem attachedQuality?_eq_none (h : t.attachedQuality? channelId messageId = none) :
    ∀ row ∈ t.qualities, row.archiveChannelId = channelId → row.archiveMessageId ≠ messageId := by
  intro row hmem hchannel hid
  have hnot := List.find?_eq_none.1 h row hmem
  simp [hchannel, hid] at hnot

theorem movieBefore?_eq_some {movie : Movie} (h : t.movieBefore? channelId messageId = some movie) :
    movie ∈ t.movies ∧ movie.archiveChannelId = channelId ∧ movie.posterMessageId < messageId ∧
      ∀ other ∈ t.movies, other.archiveChannelId = channelId → other.posterMessageId < messageId →
        other.posterMessageId ≤ movie.posterMessageId := by
  have hmem := List.argmax_mem h
  obtain ⟨hmem, hfound⟩ := List.mem_filter.1 hmem
  simp only [Bool.and_eq_true, decide_eq_true_eq] at hfound
  refine ⟨hmem, hfound.1, hfound.2, fun other hother hchannel hlt => ?_⟩
  exact List.le_of_mem_argmax (List.mem_filter.2 ⟨hother, by simp [hchannel, hlt]⟩) h

theorem movieBefore?_eq_none (h : t.movieBefore? channelId messageId = none) :
    ∀ movie ∈ t.movies, movie.archiveChannelId = channelId → messageId ≤ movie.posterMessageId := by
  intro movie hmem hchannel
  by_contra hlt
  have hempty := List.argmax_eq_none.1 h
  have hmem : movie ∈ t.movies.rows.filter fun movie =>
      movie.archiveChannelId = channelId && movie.posterMessageId < messageId :=
    List.mem_filter.2 ⟨hmem, by simp [hchannel, not_le.1 hlt]⟩
  rw [hempty] at hmem
  cases hmem

end Searches

/-! ### Recording a message -/

/-- A message is recorded: added, or written over. -/
def recordMessage (t : ArchiveTables) (channelId : ℤ) (message : ArchiveMessage) : ArchiveTables :=
  match t.snapshot? channelId message.messageId with
  | none => { t with snapshots := t.snapshots.insert (newSnapshot channelId message) }
  | some _ => t.overwriteSnapshot channelId message

theorem key_marked (s : ArchiveMessageSnapshot) :
    ({ s with version := s.version + 1, conflicted := true } : ArchiveMessageSnapshot).key =
      s.key :=
  rfl

/-- Other content with the same edit time puts the snapshot in conflict. -/
def markConflict (t : ArchiveTables) (channelId : ℤ) (messageId : ℕ) : ArchiveTables :=
  t.updateSnapshot channelId messageId
    (fun s => { s with version := s.version + 1, conflicted := true }) key_marked

section

variable {t : ArchiveTables} {channelId : ℤ} {message : ArchiveMessage}

@[simp] theorem movies_recordMessage : (t.recordMessage channelId message).movies = t.movies := by
  unfold recordMessage
  split <;> rfl

@[simp] theorem qualities_recordMessage :
    (t.recordMessage channelId message).qualities = t.qualities := by
  unfold recordMessage
  split <;> rfl

end

section

variable {t : ArchiveTables} {channelId : ℤ} {message : ArchiveMessage}

theorem snapshot?_updateSnapshot {f : ArchiveMessageSnapshot → ArchiveMessageSnapshot}
    {hf : ∀ s, (f s).key = s.key} {channelId' : ℤ} {messageId messageId' : ℕ} :
    (t.updateSnapshot channelId messageId f hf).snapshot? channelId' messageId' =
      if toLex (channelId', messageId') = toLex (channelId, messageId) then
        (t.snapshot? channelId messageId).map f
      else t.snapshot? channelId' messageId' :=
  KeyedTable.find?_modifyAt t.snapshots _ _ f hf

/-- A message without a snapshot is neither a poster nor attached. -/
theorem Linked.unseen (ht : t.Linked) {messageId : ℕ}
    (h : t.snapshot? channelId messageId = none) :
    t.posterMovie? channelId messageId = none ∧ t.attachedQuality? channelId messageId = none := by
  constructor
  · cases hposter : t.posterMovie? channelId messageId with
    | none => rfl
    | some movie =>
        obtain ⟨hmem, rfl, rfl⟩ := posterMovie?_eq_some hposter
        have hrecorded := ht.posterRecorded movie hmem
        simp [h] at hrecorded
  · cases hrow : t.attachedQuality? channelId messageId with
    | none => rfl
    | some row =>
        obtain ⟨hmem, rfl, rfl⟩ := attachedQuality?_eq_some hrow
        have hrecorded := ht.rowRecorded row hmem
        simp [h] at hrecorded

/-- The snapshot of a recorded message. -/
def recordedSnapshot (t : ArchiveTables) (channelId : ℤ) (message : ArchiveMessage) :
    ArchiveMessageSnapshot where
  archiveChannelId := channelId
  messageId := message.messageId
  mediaKind := message.mediaKind
  caption := message.caption
  editedAt := message.editedAt
  conflicted := false
  version :=
    ((t.snapshot? channelId message.messageId).map ArchiveMessageSnapshot.version).getD 0 + 1
  messageId_pos := message.messageId_pos

/-- **What is recorded**: the message, under its own key. -/
theorem snapshot?_recordMessage {channelId' : ℤ} {messageId' : ℕ} :
    (t.recordMessage channelId message).snapshot? channelId' messageId' =
      if toLex (channelId', messageId') = toLex (channelId, message.messageId) then
        some (t.recordedSnapshot channelId message)
      else t.snapshot? channelId' messageId' := by
  unfold recordMessage recordedSnapshot
  cases hs : t.snapshot? channelId message.messageId with
  | none =>
      have hnew : t.snapshots.find? (newSnapshot channelId message).key = none := hs
      have hnewKey : (newSnapshot channelId message).key = toLex (channelId, message.messageId) :=
        rfl
      refine (KeyedTable.find?_insert hnew _).trans ?_
      rw [hnewKey]
      by_cases hkey : toLex (channelId', messageId') = toLex (channelId, message.messageId)
      · rw [if_pos hkey, if_pos hkey.symm]
        rfl
      · rw [if_neg hkey, if_neg (Ne.symm hkey)]
        rfl
  | some s =>
      refine snapshot?_updateSnapshot.trans ?_
      split
      · have hkey : s.key = toLex (channelId, message.messageId) := KeyedTable.key_of_find? hs
        obtain ⟨hchannel, hid⟩ : s.archiveChannelId = channelId ∧ s.messageId = message.messageId :=
          Prod.ext_iff.1 (toLex.injective hkey)
        rw [hs]
        simp only [Option.map_some, hchannel, hid, Option.getD_some]
      · rfl

theorem isSome_snapshot?_recordMessage {channelId' : ℤ} {messageId' : ℕ}
    (h : (t.snapshot? channelId' messageId').isSome) :
    ((t.recordMessage channelId message).snapshot? channelId' messageId').isSome := by
  rw [snapshot?_recordMessage]
  split
  · rfl
  · exact h

/-- Recording a message keeps the links. -/
theorem Linked.recordMessage (ht : t.Linked) : (t.recordMessage channelId message).Linked := by
  refine ⟨fun movie hmovie => ?_, fun row hrow => ?_, fun row hrow => ?_,
    fun row hrow movie hmovie => ?_⟩
  · rw [movies_recordMessage] at hmovie
    exact isSome_snapshot?_recordMessage (ht.posterRecorded movie hmovie)
  · rw [qualities_recordMessage] at hrow
    exact isSome_snapshot?_recordMessage (ht.rowRecorded row hrow)
  · rw [qualities_recordMessage] at hrow
    rw [movies_recordMessage]
    exact ht.rowMovie row hrow
  · rw [qualities_recordMessage] at hrow
    rw [movies_recordMessage] at hmovie
    exact ht.disjoint row hrow movie hmovie

end

/-! ### The ways of a recorded message -/

/-- The row is set aside: it keeps its place and loses its confidence. -/
structure SetsAside (f : MovieQuality → MovieQuality) : Prop where
  id : ∀ row, (f row).id = row.id
  movieId : ∀ row, (f row).movieId = row.movieId
  archiveChannelId : ∀ row, (f row).archiveChannelId = row.archiveChannelId
  archiveMessageId : ∀ row, (f row).archiveMessageId = row.archiveMessageId
  quality : ∀ row, (f row).quality = row.quality
  parserConfidence : ∀ row, (f row).parserConfidence = 0

section

variable [UnicodeData] (parser : ArchiveParser)

/-- The ways to index a recorded message; `t` are the tables with the message recorded. -/
inductive IndexStep (t : ArchiveTables) (channelId : ℤ) (message : ArchiveMessage) :
    ArchiveTables → Prop
  | posterInvalid (movie : Movie)
      (hposter : t.posterMovie? channelId message.messageId = some movie) :
      IndexStep t channelId message (t.invalidatePoster movie message)
  | posterValid (movie : Movie) (group : ParsedMovieGroup)
      (hposter : t.posterMovie? channelId message.messageId = some movie)
      (hgroup : parsePoster parser message = some group) :
      IndexStep t channelId message
        ((t.updateMovie movie.id (setPoster group)).revalidateMovie parser
          (setPoster group movie)).1
  | qualityInvalid (row : MovieQuality) (movie : Movie) (f : MovieQuality → MovieQuality)
      (hf : SetsAside f) (hposter : t.posterMovie? channelId message.messageId = none)
      (hrow : t.attachedQuality? channelId message.messageId = some row)
      (hmovie : t.movies.find? row.movieId = some movie) :
      IndexStep t channelId message ((t.updateQuality row.id f hf.id).updateMovie movie.id
        fun m => { m with status := .ambiguous })
  | qualityValid (row : MovieQuality) (movie : Movie) (parsed : ParsedQuality)
      (hposter : t.posterMovie? channelId message.messageId = none)
      (hrow : t.attachedQuality? channelId message.messageId = some row)
      (hmovie : t.movies.find? row.movieId = some movie)
      (hparsed : groupQuality? (t.parseMovieGroup parser movie (some message.messageId))
        message.messageId = some parsed)
      (hfree : parsed.quality ≠ row.quality → ∀ other ∈ t.qualities, other.movieId = movie.id →
        other.quality = parsed.quality → other.id = row.id) :
      IndexStep t channelId message
        ((t.updateQuality row.id (setQualityColumns parsed)).revalidateMovie parser movie).1
  | boundary (hposter : t.posterMovie? channelId message.messageId = none)
      (hrow : t.attachedQuality? channelId message.messageId = none) :
      IndexStep t channelId message (t.reconcileBoundary parser channelId message.messageId)
  | newPoster (group : ParsedMovieGroup)
      (hposter : t.posterMovie? channelId message.messageId = none)
      (hrow : t.attachedQuality? channelId message.messageId = none)
      (hgroup : parsePoster parser message = some group) :
      IndexStep t channelId message (t.upsertPoster parser channelId group).1
  | candidateIgnored (hposter : t.posterMovie? channelId message.messageId = none)
      (hrow : t.attachedQuality? channelId message.messageId = none)
      (hkind : message.mediaKind = .video ∨ message.mediaKind = .document)
      (hquality : (extractQuality (message.caption.getD [])).isSome)
      (hignored : ∀ movie, t.movieBefore? channelId message.messageId = some movie →
        groupQuality? (t.parseMovieGroup parser movie (some message.messageId))
          message.messageId = none) :
      IndexStep t channelId message t
  | candidateAccepted (movie : Movie) (parsed : ParsedQuality)
      (hposter : t.posterMovie? channelId message.messageId = none)
      (hrow : t.attachedQuality? channelId message.messageId = none)
      (hmovie : t.movieBefore? channelId message.messageId = some movie)
      (hparsed : groupQuality? (t.parseMovieGroup parser movie (some message.messageId))
        message.messageId = some parsed) :
      IndexStep t channelId message
        ((t.upsertQualityRow movie.id channelId parsed).1.revalidateMovie parser movie).1

/-- What a call does to the tables. -/
inductive CallStep (t : ArchiveTables) (c : ArchiveCall) : ArchiveTables → Prop
  | unchanged (h : c.fate t = .kept ∨ ∃ error, t.outcome parser c = .error error) : CallStep t c t
  | conflicted (s : ArchiveMessageSnapshot)
      (hs : t.snapshot? c.channelId c.message.messageId = some s)
      (hfate : c.fate t = .conflicted)
      (hkeys : ((t.markConflict c.channelId c.message.messageId).invalidateSnapshotConflict parser
        c.channelId c.message.messageId).UniqueKeys) :
      CallStep t c
        ((t.markConflict c.channelId c.message.messageId).invalidateSnapshotConflict parser
        c.channelId c.message.messageId)
  | indexed (t' : ArchiveTables) (hid : c.message.messageId ≤ bigintMax)
      (hfate : c.fate t = .recorded)
      (h : IndexStep parser (t.recordMessage c.channelId c.message) c.channelId c.message t')
      (hkeys : t'.UniqueKeys) : CallStep t c t'

variable {parser} {t : ArchiveTables} {channelId : ℤ} {message : ArchiveMessage}

/-- **What `_record_snapshot` does.** -/
theorem recordSnapshot_cases {reconcile : Bool} {expectedVersion : Option ℕ} {t' : ArchiveTables}
    {recorded : Bool}
    (h : t.recordSnapshot parser channelId message reconcile expectedVersion = (t', recorded)) :
    (recorded = false ∧ t' = t ∧
        t.snapshotFate channelId message reconcile expectedVersion = .kept) ∨
      (recorded = false ∧ t.snapshotFate channelId message reconcile expectedVersion = .conflicted ∧
        ∃ s, t.snapshot? channelId message.messageId = some s ∧
          t' = (t.markConflict channelId message.messageId).invalidateSnapshotConflict parser
            channelId
            message.messageId) ∨
      recorded = true ∧ t.snapshotFate channelId message reconcile expectedVersion = .recorded ∧
        t' = t.recordMessage channelId message ∧
        (reconcile = false → t.snapshot? channelId message.messageId = none) := by
  unfold recordSnapshot at h
  unfold snapshotFate
  dsimp only at h ⊢
  split at h
  · -- the version the caller has read is no longer that of the row
    next htoken =>
      cases h
      exact .inl ⟨rfl, rfl, if_pos htoken⟩
  · next htoken =>
      rw [if_neg htoken]
      cases hs : t.snapshot? channelId message.messageId with
      | none =>
          rw [hs] at h
          cases h
          exact .inr (.inr ⟨rfl, rfl, by rw [recordMessage, hs], fun _ => rfl⟩)
      | some s =>
          rw [hs] at h
          have hrecord : t.recordMessage channelId message =
              t.overwriteSnapshot channelId message := by
            rw [recordMessage, hs]
          dsimp only at h ⊢
          split at h
          · -- an ingest leaves a message that is already there alone
            next hingest =>
              cases h
              exact .inl ⟨rfl, rfl, if_pos hingest⟩
          · next hreconcile =>
              rw [if_neg hreconcile]
              have hreconcile : reconcile = false → some s = none := fun hfalse => by
                simp [hfalse] at hreconcile
              cases hold : s.editedAt with
              | none =>
                  rw [hold] at h
                  cases h
                  exact .inr (.inr ⟨rfl, rfl, hrecord.symm, hreconcile⟩)
              | some recordedAt =>
                  rw [hold] at h
                  dsimp only at h ⊢
                  cases hnew : message.editedAt with
                  | none =>
                      rw [hnew] at h
                      cases h
                      exact .inl ⟨rfl, rfl, rfl⟩
                  | some editedAt =>
                      rw [hnew] at h
                      dsimp only at h ⊢
                      -- two edits: the earlier one loses, two of one moment have to agree
                      split at h
                      · next holder =>
                          cases h
                          exact .inl ⟨rfl, rfl, if_pos holder⟩
                      · next hedited =>
                          rw [if_neg hedited]
                          split at h
                          · next hsame =>
                              rw [if_pos hsame]
                              split at h
                              · next hother =>
                                  cases h
                                  exact .inr (.inl ⟨rfl, if_pos hother, s, rfl, rfl⟩)
                              · next hequal =>
                                  cases h
                                  exact .inl ⟨rfl, rfl, if_neg hequal⟩
                          · next hnewer =>
                              cases h
                              exact .inr (.inr ⟨rfl, if_neg hnewer, hrecord.symm, hreconcile⟩)

/-- A file is a candidate when its caption shows a resolution. -/
theorem indexMessage_file (hkind : message.mediaKind = .video ∨ message.mediaKind = .document) :
    t.indexMessage parser channelId message =
      if (extractQuality (message.caption.getD [])).isSome then
        t.upsertQuality parser channelId message
      else .ok (t.reconcileBoundary parser channelId message.messageId, ignored) := by
  rcases hkind with hkind | hkind
  all_goals
    rw [indexMessage, hkind]
    dsimp only
    cases extractQuality (message.caption.getD []) with
    | none => rfl
    | some quality => rfl

/-- **The ways of a message that is neither a poster nor attached.** -/
theorem indexMessage_step (hposter : t.posterMovie? channelId message.messageId = none)
    (hrow : t.attachedQuality? channelId message.messageId = none) {t' : ArchiveTables}
    {result : ArchiveIndexResult}
    (h : t.indexMessage parser channelId message = .ok (t', result)) :
    IndexStep parser t channelId message t' := by
  -- a video or a document
  have hcandidate : (message.mediaKind = .video ∨ message.mediaKind = .document) →
      IndexStep parser t channelId message t' := by
    intro hkind
    rw [indexMessage_file hkind] at h
    split at h
    · next hquality =>
        have hnot : (∀ movie, t.movieBefore? channelId message.messageId = some movie →
            groupQuality? (t.parseMovieGroup parser movie (some message.messageId))
              message.messageId = none) → IndexStep parser t channelId message t :=
          .candidateIgnored hposter hrow hkind hquality
        unfold upsertQuality at h
        split at h
        · next hnone =>
            cases h
            exact hnot fun movie hmovie => by cases hnone.symm.trans hmovie
        · next movie hmovie =>
            have hgroup : ∀ found, groupQuality? (t.parseMovieGroup parser movie
                (some message.messageId)) message.messageId = found →
                ∀ movie', t.movieBefore? channelId message.messageId = some movie' →
                groupQuality? (t.parseMovieGroup parser movie' (some message.messageId))
                  message.messageId = found := by
              intro found hfound movie' hmovie'
              obtain rfl : movie = movie' := Option.some.inj (hmovie.symm.trans hmovie')
              exact hfound
            split at h
            · next hnone =>
                cases h
                exact hnot (hgroup none (by rw [hnone]; rfl))
            · next group hsome =>
                split at h
                · next hnone =>
                    cases h
                    exact hnot (hgroup none (by rw [hsome]; exact hnone))
                · next parsed hparsed =>
                    split at h
                    · cases h
                    · cases h
                      exact .candidateAccepted movie parsed hposter hrow hmovie
                        (by rw [hsome]; exact hparsed)
    · cases h
      exact .boundary hposter hrow
  cases hkind : message.mediaKind with
  | photo =>
      rw [indexMessage, hkind] at h
      dsimp only at h
      split at h
      · cases h
        exact .boundary hposter hrow
      · next group hgroup =>
          obtain rfl : (t.upsertPoster parser channelId group).1 = t' :=
            congrArg Prod.fst (Except.ok.inj h)
          exact .newPoster group hposter hrow hgroup
  | video => exact hcandidate (.inl hkind)
  | document => exact hcandidate (.inr hkind)
  | other =>
      rw [indexMessage, hkind] at h
      cases h
      exact .boundary hposter hrow

theorem reconcilePosterEdit_step {movie : Movie}
    (hposter : t.posterMovie? channelId message.messageId = some movie) :
    IndexStep parser t channelId message (t.reconcilePosterEdit parser movie message).1 := by
  unfold reconcilePosterEdit
  split
  · exact .posterInvalid movie hposter
  · split
    · exact .posterInvalid movie hposter
    · next group hgroup => exact .posterValid movie group hposter hgroup

theorem reconcileQualityEdit_step {row : MovieQuality} {movie : Movie}
    (hposter : t.posterMovie? channelId message.messageId = none)
    (hrow : t.attachedQuality? channelId message.messageId = some row)
    (hmovie : t.movies.find? row.movieId = some movie) :
    IndexStep parser t channelId message (t.reconcileQualityEdit parser movie row message).1 := by
  have hinvalid : ∀ f (hf : SetsAside f), IndexStep parser t channelId message
      ((t.updateQuality row.id f hf.id).updateMovie movie.id fun m =>
        { m with status := .ambiguous }) := fun f hf =>
    .qualityInvalid row movie f hf hposter hrow hmovie
  have hinvalidate : ∀ diagnostic, IndexStep parser t channelId message
      (t.invalidateQualityEdit movie row message diagnostic).1 := fun _ =>
    hinvalid (fun r => { r with
      rawCaption := message.caption.getD []
      extractedTitle := none
      normalizedTitle := none
      extractedYear := none
      parserConfidence := 0 })
      ⟨fun _ => rfl, fun _ => rfl, fun _ => rfl, fun _ => rfl, fun _ => rfl, fun _ => rfl⟩
  unfold reconcileQualityEdit
  split
  · exact hinvalidate _
  · split
    · exact hinvalidate _
    · next parsed hparsed =>
        split
        · exact hinvalid (fun r => { r with
            rawCaption := message.caption.getD [], parserConfidence := 0 })
            ⟨fun _ => rfl, fun _ => rfl, fun _ => rfl, fun _ => rfl, fun _ => rfl, fun _ => rfl⟩
        · next hfree =>
            refine .qualityValid row movie parsed hposter hrow hmovie hparsed
              fun hlabel other hother hother_movie hother_label => ?_
            by_contra hid
            refine hfree (Bool.and_eq_true_iff.2 ⟨decide_eq_true hlabel, ?_⟩)
            exact List.any_eq_true.2 ⟨other, hother, by simp [hother_movie, hother_label, hid]⟩

/-- **The ways of a recorded message.** -/
theorem Linked.reconcileMessage_step (ht : t.Linked) {t' : ArchiveTables}
    {result : ArchiveIndexResult}
    (h : t.reconcileMessage parser channelId message = .ok (t', result)) :
    IndexStep parser t channelId message t' := by
  unfold reconcileMessage at h
  split at h
  · next movie hposter =>
      obtain rfl : (t.reconcilePosterEdit parser movie message).1 = t' :=
        congrArg Prod.fst (Except.ok.inj h)
      exact reconcilePosterEdit_step hposter
  · next hposter =>
      cases hrow : t.attachedQuality? channelId message.messageId with
      | none =>
          simp only [hrow] at h
          exact indexMessage_step hposter hrow h
      | some row =>
          obtain ⟨movie, hmovie, -⟩ := ht.rowMovie row (attachedQuality?_eq_some hrow).1
          simp only [hrow, attachedMovie?, Option.bind_some, hmovie] at h
          obtain rfl : (t.reconcileQualityEdit parser movie row message).1 = t' :=
            congrArg Prod.fst (Except.ok.inj h)
          exact reconcileQualityEdit_step hposter hrow hmovie

/-- A transaction whose index takes one of the ways. -/
theorem indexTransaction_step {c : ArchiveCall} {reconcile : Bool} {expectedVersion : Option ℕ}
    {index : ArchiveTables → Except DbError (ArchiveTables × ArchiveIndexResult)}
    (hfate : getInt c.configured = .ok (some c.channelId) → c.message.messageId ≤ bigintMax →
      c.fate t = t.snapshotFate c.channelId c.message reconcile expectedVersion)
    (hindex : (reconcile = false → t.snapshot? c.channelId c.message.messageId = none) →
      ∀ t' result, index (t.recordMessage c.channelId c.message) = .ok (t', result) →
        IndexStep parser (t.recordMessage c.channelId c.message) c.channelId c.message t')
    {t' : ArchiveTables} {result : ArchiveIndexResult}
    (h : indexTransaction parser c.configured t c.channelId c.message reconcile expectedVersion
      index = .ok (t', result)) : CallStep parser t c t' := by
  unfold indexTransaction at h
  split at h
  · cases h
  · next configuredId hconfigured =>
      split at h
      · next hother =>
          cases h
          refine .unchanged (.inl ?_)
          unfold ArchiveCall.fate
          rw [hconfigured]
          exact if_pos hother
      · next hchannel =>
          rw [not_not.1 hchannel] at hconfigured
          split at h
          · cases h
          · next hid =>
              have hfate := hfate hconfigured (not_lt.1 hid)
              split at h
              next t₁ recorded hrecord =>
                -- the message is kept out, conflicts with its snapshot, or is recorded and indexed
                rcases recordSnapshot_cases hrecord with ⟨rfl, rfl, hkept⟩ |
                  ⟨rfl, hconflict, s, hs, rfl⟩ | ⟨rfl, hrecorded, rfl, hnew⟩
                · obtain ⟨rfl, -⟩ := uniqueKeys_of_commit h
                  exact .unchanged (.inl (hfate.trans hkept))
                · obtain ⟨rfl, hkeys⟩ := uniqueKeys_of_commit h
                  exact .conflicted s hs (hfate.trans hconflict) hkeys
                · rw [if_pos rfl] at h
                  split at h
                  · cases h
                  · next t₂ result₂ hstep =>
                      obtain ⟨rfl, hkeys⟩ := uniqueKeys_of_commit h
                      exact .indexed _ (not_lt.1 hid) (hfate.trans hrecorded)
                        (hindex hnew _ _ hstep) hkeys

/-- **A call takes one of the ways.** -/
theorem Linked.callStep (ht : t.Linked) (c : ArchiveCall) :
    CallStep parser t c (t.call parser c) := by
  unfold call
  dsimp only
  split
  · next t' result h =>
      cases c with
      | ingest configured channelId message =>
          refine indexTransaction_step (c := .ingest configured channelId message)
            (fun hconfigured hid => ?_) (fun hnew t' result h => ?_) h
          · rw [ArchiveCall.fate, hconfigured]
            simp only [ne_eq, not_true, if_false, not_lt.2 hid]
            rfl
          obtain ⟨hposter, hrow⟩ := ht.unseen (hnew rfl)
          refine indexMessage_step ?_ ?_ h
          · simpa only [posterMovie?, movies_recordMessage] using hposter
          · simpa only [attachedQuality?, qualities_recordMessage] using hrow
      | reconcileEdit configured channelId message expectedSnapshotVersion =>
          exact indexTransaction_step
            (c := .reconcileEdit configured channelId message expectedSnapshotVersion)
            (fun hconfigured hid => by
              rw [ArchiveCall.fate, hconfigured]
              simp only [ne_eq, not_true, if_false, not_lt.2 hid]
              rfl)
            (fun _ t' result h => ht.recordMessage.reconcileMessage_step h) h
  · next error h =>
      refine .unchanged (.inr ⟨error, ?_⟩)
      cases c <;> exact h

end

end ArchiveTables

end CineGate
