/-
**The file that is handed out.**

A reward session binds a movie and a resolution once.  The row it names is relabelled, re-pointed,
zeroed and revived by the indexer afterwards; when `_prepare` hands out its message all the same,
the recorded snapshot of that message shows the resolution that was bought.

* `KeepsArchive` — no transaction of the services writes to the archive;
* `World.Created`, `World.session_origin` — the request a session goes back to;
* `World.delivered_file_is_purchased` — the result.
-/

import CineGate.ArchiveInvariant
import CineGate.RewardGuarantees
import CineGate.SystemSteps

set_option relaxedAutoImplicit false
set_option autoImplicit false

namespace CineGate

/-! ### Transactions without a write to the archive -/

/-- The transaction leaves the archive. -/
def KeepsArchive {ε α : Type} (db : Db) (result : Except ε (Db × α)) : Prop :=
  ∀ db' value, result = .ok (db', value) → db'.archive = db.archive

section KeepsArchive

variable {α : Type} {db : Db} {clock : Clock}

theorem keepsArchive_error {ε : Type} {error : ε} :
    KeepsArchive db (Except.error error : Except ε (Db × α)) := by
  rintro db' value ⟨⟩

theorem keepsArchive_ok {ε : Type} {value : α} :
    KeepsArchive db (Except.ok (db, value) : Except ε (Db × α)) := by
  rintro db' value ⟨⟩
  rfl

theorem keepsArchive_commitDelivery {db₁ : Db} {value : α} (h : db₁.archive = db.archive) :
    KeepsArchive db (db₁.commitDelivery value) := by
  intro db' value' hok
  unfold Db.commitDelivery at hok
  split at hok
  · cases hok
    exact h
  · cases hok

theorem keepsArchive_claimDelivery {reward : RewardSession} {row : MovieQuality}
    {caption : RenderedTemplate} {deleteSeconds : ℤ} {now : Instant} :
    KeepsArchive db (claimDelivery db reward row caption deleteSeconds now) := by
  have hensure : (db.ensureDelivery reward row).1.archive = db.archive := by
    unfold Db.ensureDelivery
    split <;> rfl
  unfold claimDelivery
  dsimp only
  split
  · exact keepsArchive_commitDelivery hensure
  · split
    · exact keepsArchive_commitDelivery hensure
    · exact keepsArchive_commitDelivery hensure

theorem keepsArchive_prepare {render : CaptionRenderer} {sessionId : ℕ} :
    KeepsArchive db (prepare db render sessionId clock) := by
  unfold prepare
  dsimp only
  split
  · exact keepsArchive_error
  · split
    · split
      · exact keepsArchive_error
      · exact keepsArchive_ok
    · split
      · exact keepsArchive_ok
      · split
        · exact keepsArchive_error
        · split
          · exact keepsArchive_commitDelivery rfl
          · split
            · split
              · exact keepsArchive_error
              · exact keepsArchive_claimDelivery
            · exact keepsArchive_error

theorem keepsArchive_finalizeSent {sessionId deliveryId messageId : ℕ} {deleteSeconds : ℤ} :
    KeepsArchive db (finalizeSent db sessionId deliveryId messageId deleteSeconds clock) := by
  unfold finalizeSent
  dsimp only
  split
  · split
    · exact keepsArchive_ok
    · exact keepsArchive_commitDelivery rfl
  · exact keepsArchive_error

theorem keepsArchive_resetFailedSend {sessionId deliveryId : ℕ} {error : Str}
    {reason : Option UnavailableReason} :
    KeepsArchive db (resetFailedSend db sessionId deliveryId error reason clock) := by
  unfold resetFailedSend
  split
  · exact keepsArchive_commitDelivery rfl
  · exact keepsArchive_ok

theorem keepsArchive_recoverStaleSends {staleSeconds : ℤ} {locked : ℕ → Bool} :
    KeepsArchive db (recoverStaleSends db staleSeconds locked clock) := by
  unfold recoverStaleSends
  split
  · exact keepsArchive_error
  · exact keepsArchive_commitDelivery rfl

theorem keepsArchive_recoverStaleDeletions {staleSeconds : ℤ} :
    KeepsArchive db (recoverStaleDeletions db staleSeconds clock) := by
  unfold recoverStaleDeletions
  split
  · exact keepsArchive_error
  · exact keepsArchive_commitDelivery rfl

theorem keepsArchive_markDeleted {deliveryId : ℕ} :
    KeepsArchive db (markDeleted db deliveryId clock) := keepsArchive_commitDelivery rfl

theorem keepsArchive_markDeleteFailed {deliveryId : ℕ} {error : Str} :
    KeepsArchive db (markDeleteFailed db deliveryId error) := keepsArchive_commitDelivery rfl

theorem keepsArchive_rescheduleDelete {deliveryId : ℕ} {error : Str} :
    KeepsArchive db (rescheduleDelete db deliveryId error clock) := keepsArchive_commitDelivery rfl

end KeepsArchive

namespace World

variable {w : World}

theorem archive_commit {ε α : Type} {result : Except ε (Db × α)} (h : KeepsArchive w.db result)
    {w' : World} (hw' : w'.db = w.db) : (w'.commit result).db.archive = w.db.archive := by
  unfold commit
  split
  · next db' value => exact h db' value rfl
  · rw [hw']

theorem archive_prepare {sessionId : ℕ} {render : CaptionRenderer} {clock : Clock} :
    (w.prepare sessionId render clock).db.archive = w.db.archive := by
  unfold prepare
  split
  · next h => exact keepsArchive_prepare _ _ h
  · next h => exact keepsArchive_prepare _ _ h
  · rfl

theorem archive_complete {attemptId : ℕ} {clock : Clock} :
    (w.complete attemptId clock).db.archive = w.db.archive := by
  unfold complete
  split
  · rfl
  · split
    · split
      · next h => exact keepsArchive_finalizeSent _ _ h
      · rfl
    · split
      · next h => exact keepsArchive_resetFailedSend _ _ h
      · rfl
    · rfl

theorem archive_recoverStaleSends {staleSeconds : ℤ} {locked : ℕ → Bool} {clock : Clock} :
    (w.recoverStaleSends staleSeconds locked clock).db.archive = w.db.archive := by
  unfold recoverStaleSends
  split
  · next h => exact keepsArchive_recoverStaleSends _ _ h
  · rfl

theorem archive_claimDueDeletions {limit : ℤ} {locked : ℕ → Bool} {clock : Clock} :
    (w.claimDueDeletions limit locked clock).db.archive = w.db.archive := by
  have hkeeps : KeepsArchive w.db (CineGate.claimDueDeletions w.db limit locked clock) :=
    keepsArchive_commitDelivery rfl
  unfold claimDueDeletions
  split
  · next h => exact hkeeps _ _ h
  · rfl

theorem archive_reportDeletion {taskId : ℕ} {clock : Clock} :
    (w.reportDeletion taskId clock).db.archive = w.db.archive := by
  unfold reportDeletion
  split
  · rfl
  · split
    · dsimp only
      split
      · exact archive_commit keepsArchive_markDeleted rfl
      · exact archive_commit keepsArchive_markDeleteFailed rfl
      · exact archive_commit keepsArchive_rescheduleDelete rfl
    · rfl

/-! ### The archive in a run -/

section

variable [UnicodeData] {parser : ArchiveParser}

theorem archive_commitArchive_ingest {channelId : ℤ} {message : ArchiveMessage} :
    (w.commitArchive (w.db.archive.ingest parser w.db.settings.archiveChannelId channelId
      message)).db.archive =
      w.db.archive.call parser (.ingest w.db.settings.archiveChannelId channelId message) := by
  unfold ArchiveTables.call
  dsimp only
  generalize w.db.archive.ingest parser _ _ _ = result
  cases result <;> rfl

theorem archive_commitArchive_reconcileEdit {channelId : ℤ} {message : ArchiveMessage}
    {expectedSnapshotVersion : Option ℕ} :
    (w.commitArchive (w.db.archive.reconcileEdit parser w.db.settings.archiveChannelId channelId
      message expectedSnapshotVersion)).db.archive =
      w.db.archive.call parser (.reconcileEdit w.db.settings.archiveChannelId channelId message
        expectedSnapshotVersion) := by
  unfold ArchiveTables.call
  dsimp only
  generalize w.db.archive.reconcileEdit parser _ _ _ _ = result
  cases result <;> rfl

/-- **The archive of an event**: a call of the indexer, or nothing. -/
theorem archive_step {event : Event} (h : ∀ archive, event ≠ .changeArchive archive) :
    (World.step parser w event).db.archive = w.db.archive ∨
      ∃ c, (World.step parser w event).db.archive = w.db.archive.call parser c := by
  cases event with
  | getOrCreate telegramUserId movieId quality newId clock =>
      exact .inl (commit_frame onlySessions_getOrCreate).1
  | get sessionId clock => exact .inl (commit_frame onlySessions_get).1
  | claimPrompt sessionId telegramUserId clock =>
      exact .inl (commit_frame onlySessions_claimPrompt).1
  | completePrompt sessionId telegramUserId messageId clock =>
      exact .inl (commit_frame onlySessions_completePrompt).1
  | resetPromptClaim sessionId telegramUserId =>
      exact .inl (commit_frame onlySessions_resetPromptClaim).1
  | markClientCompleted sessionId telegramUserId clock =>
      exact .inl (commit_frame onlySessions_markClientCompleted).1
  | markProviderConfirmed telegramUserId clock =>
      exact .inl (commit_frame onlySessions_markProviderConfirmed).1
  | prepare sessionId render clock => exact .inl archive_prepare
  | copyMessage attemptId answer => exact .inl (congrArg Db.archive copyMessage_db)
  | complete attemptId clock => exact .inl archive_complete
  | recoverStaleSends staleSeconds locked clock => exact .inl archive_recoverStaleSends
  | recoverStaleDeletions staleSeconds clock =>
      exact .inl (archive_commit keepsArchive_recoverStaleDeletions rfl)
  | claimDueDeletions limit locked clock => exact .inl archive_claimDueDeletions
  | deleteMessage taskId answer => exact .inl (congrArg Db.archive deleteMessage_db)
  | reportDeletion taskId clock => exact .inl archive_reportDeletion
  | ingest channelId message => exact .inr ⟨_, archive_commitArchive_ingest⟩
  | reconcileEdit channelId message expectedSnapshotVersion =>
      exact .inr ⟨_, archive_commitArchive_reconcileEdit⟩
  | changeArchive archive => exact absurd rfl (h archive)
  | changeSettings settings => exact .inl rfl

/-- **The archive stays sound** while only the indexer writes to it. -/
theorem archive_sound_after (settings : Settings) {events : List Event}
    (h : ∀ archive, .changeArchive archive ∉ events) :
    ((initial settings .empty).after parser events).db.archive.Sound := by
  induction events using List.reverseRecOn with
  | nil => exact ArchiveTables.empty_sound
  | append_singleton events event ih =>
      have hevents : ∀ archive, .changeArchive archive ∉ events := fun archive hmem =>
        h archive (List.mem_append_left _ hmem)
      have hevent : ∀ archive, event ≠ .changeArchive archive := by
        rintro archive rfl
        exact h archive (by simp)
      have hsound := ih hevents
      rw [after, Transition.run_snoc]
      rcases archive_step hevent with hkept | ⟨c, hcall⟩
      · rw [hkept]
        exact hsound
      · rw [hcall]
        exact hsound.call c

/-! ### The request of a session -/

omit [UnicodeData] in
theorem find?_releaseActive {db : Db} {active : Option RewardSession} {now : Instant} {sid : ℕ}
    (hnew : db.rewardSessions.find? sid = none) :
    (db.releaseActive active now).1.rewardSessions.find? sid = none := by
  unfold Db.releaseActive
  split
  · split
    · split
      · next reason _ =>
          have hid : ∀ r, (RewardSession.preserveUnavailable reason now r).id = r.id := fun _ => rfl
          exact KeyedTable.find?_modifyAt_eq_none _ hid hnew
      · exact hnew
    · exact hnew
  · exact hnew

omit [UnicodeData] in
/-- A session that `get_or_create` has added is bound to what was asked for. -/
theorem getOrCreate_origin {db db' : Db} {telegramUserId : ℤ} {movieId newId : ℕ} {quality : Str}
    {clock : Clock} {value : RewardSessionView × Bool}
    (h : getOrCreate db telegramUserId movieId quality newId clock = .ok (db', value)) {sid : ℕ}
    {r : RewardSession} (hr : db'.rewardSessions.find? sid = some r)
    (hnew : db.rewardSessions.find? sid = none) :
    sid = newId ∧ r.movieId = movieId ∧ r.quality.label = quality := by
  unfold getOrCreate at h
  split at h
  · cases h
  · next row hrow =>
      have hlabel : row.quality.label = quality := by
        have hfound := List.find?_some hrow
        simp only [Bool.and_eq_true, decide_eq_true_eq] at hfound
        exact hfound.1.1.2
      have hexpired : (db.expireOverdue telegramUserId clock.utcnow).rewardSessions.find? sid =
          none := by
        rw [Db.expireOverdue, KeyedTable.find?_modify, hnew]
        rfl
      have hreleased : ∀ active,
          ((db.expireOverdue telegramUserId clock.utcnow).releaseActive active
            clock.utcnow).1.rewardSessions.find? sid = none := fun _ => find?_releaseActive hexpired
      have hreleased := hreleased
        ((db.expireOverdue telegramUserId clock.utcnow).activeSession? telegramUserId)
      dsimp only at h
      generalize (db.expireOverdue telegramUserId clock.utcnow).releaseActive _ _ = released at *
      obtain ⟨db₁, active⟩ := released
      dsimp only at h hreleased
      -- a commit without an insertion adds nothing
      have hcommit : ∀ {view}, db₁.commitReward view = .ok (db', value) → False := by
        intro view hcommit
        unfold Db.commitReward at hcommit
        split at hcommit
        · cases hcommit
          cases hreleased.symm.trans hr
        · cases hcommit
      split at h
      · exact (hcommit h).elim
      · split at h
        · split at h
          · exact (hcommit h).elim
          · cases h
        · split at h
          · cases h
          · next ttl _ =>
              split at h
              · cases h
              · next hfree =>
                  have hfree : db₁.rewardSessions.find? newId = none := by
                    simpa using hfree
                  unfold Db.commitReward at h
                  split at h
                  · cases h
                    have hid : (newRewardSession newId telegramUserId movieId row clock
                        (boundedSessionSeconds ttl)).id = newId := rfl
                    rw [KeyedTable.find?_insert (hid.symm ▸ hfree)] at hr
                    split at hr
                    · next hid =>
                        cases hr
                        exact ⟨hid.symm, rfl, hlabel⟩
                    · cases hreleased.symm.trans hr
                  · cases h

/-- **A session after an event** is an earlier one with its binding, or the event has asked for
it. -/
theorem Sound.session_step_origin (hw : w.Sound) {event : Event} {sessionId : ℕ} {r : RewardSession}
    (hr : (World.step parser w event).db.rewardSessions.find? sessionId = some r) :
    (∃ r₀, w.db.rewardSessions.find? sessionId = some r₀ ∧ r.movieId = r₀.movieId ∧
        r.quality = r₀.quality) ∨
      w.db.rewardSessions.find? sessionId = none ∧ ∃ telegramUserId clock,
        event = .getOrCreate telegramUserId r.movieId r.quality.label sessionId clock := by
  cases hold : w.db.rewardSessions.find? sessionId with
  | some r₀ =>
      -- the session was there; a move keeps its binding
      have he₀ : w.db.entitlement? sessionId = some ⟨r₀, w.db.deliveryOf? sessionId⟩ :=
        Db.entitlement?_eq_some.2 ⟨hold, rfl⟩
      obtain ⟨⟨r', d'⟩, he', hcontinues⟩ := hw.continues_step event he₀
      obtain rfl : r' = r := Option.some.inj ((Db.entitlement?_eq_some.1 he').1.symm.trans hr)
      exact .inl ⟨r₀, rfl, hcontinues.movieId, hcontinues.quality⟩
  | none =>
      by_cases hasks : ∃ telegramUserId movieId quality newId clock,
          event = .getOrCreate telegramUserId movieId quality newId clock
      · obtain ⟨telegramUserId, movieId, quality, newId, clock, rfl⟩ := hasks
        simp only [World.step, commit] at hr
        split at hr
        · next db' value h =>
            obtain ⟨rfl, rfl, rfl⟩ := getOrCreate_origin h hr hold
            exact .inr ⟨rfl, telegramUserId, clock, rfl⟩
        · cases hold.symm.trans hr
      · have hupdates : w.db.Updates (Copied w event) (World.step parser w event).db :=
          step_updates hw fun u m q i c heq => hasks ⟨u, m, q, i, c, heq⟩
        cases (hupdates.noNew sessionId hold).symm.trans hr

variable (parser) in
/-- The run has created the session with a request for the movie and the resolution. -/
def Created (w : World) (events : List Event) (sessionId movieId : ℕ) (quality : Resolution) :
    Prop :=
  ∃ before later telegramUserId clock,
    events = before ++ .getOrCreate telegramUserId movieId quality.label sessionId clock :: later ∧
      (w.after parser before).db.rewardSessions.find? sessionId = none ∧
        ((w.after parser (before ++ [.getOrCreate telegramUserId movieId quality.label sessionId
          clock])).db.rewardSessions.find? sessionId).isSome

/-- **A session is bound to what it was created for**, whatever has become of its row since. -/
theorem session_origin (settings : Settings) (archive : ArchiveTables) (events : List Event)
    {sessionId : ℕ} {r : RewardSession}
    (hr : ((initial settings archive).after parser events).db.rewardSessions.find? sessionId =
      some r) : Created parser (initial settings archive) events sessionId r.movieId r.quality := by
  induction events using List.reverseRecOn generalizing r with
  | nil => cases hr
  | append_singleton events event ih =>
      have hw : ((initial settings archive).after parser events).Sound :=
        sound_after settings archive events
      have hr' := hr
      rw [after, Transition.run_snoc] at hr'
      rcases hw.session_step_origin hr' with ⟨r₀, hr₀, hmovie, hquality⟩ |
        ⟨hnew, telegramUserId, clock, rfl⟩
      · obtain ⟨before, later, telegramUserId, clock, rfl, hcreated⟩ := ih hr₀
        rw [hmovie, hquality]
        exact ⟨before, later ++ [event], telegramUserId, clock, by simp, hcreated⟩
      · refine ⟨events, [], telegramUserId, clock, rfl, hnew, ?_⟩
        rw [hr]
        rfl

/-! ### The file -/

omit [UnicodeData] in
/-- A binding without a reason against it. -/
theorem bindingReason_eq_none {t : ArchiveTables} {r : RewardSession} {row : MovieQuality}
    (h : t.bindingReason r = none) (hrow : t.qualities.find? r.movieQualityId = some row) :
    row.movieId = r.movieId ∧ row.quality = r.quality ∧ 0 < row.parserConfidence := by
  unfold ArchiveTables.bindingReason at h
  rw [hrow] at h
  cases hmovie : t.movies.find? r.movieId with
  | none => simp [hmovie, availabilityReason] at h
  | some movie =>
      rw [hmovie] at h
      simp only [availabilityReason] at h
      split at h
      · cases h
      · next hbinding =>
          split at h
          · cases h
          · split at h
            · cases h
            · next hconfidence =>
                simp only [Bool.or_eq_true, decide_eq_true_eq, not_or, not_not] at hbinding
                exact ⟨hbinding.1, hbinding.2, Nat.pos_of_ne_zero hconfidence⟩

variable (parser) in
/-- **The delivered file is the purchased resolution.** -/
theorem delivered_file_is_purchased (settings : Settings) {events : List Event}
    (hevents : ∀ archive, .changeArchive archive ∉ events) {sessionId : ℕ}
    {render : CaptionRenderer} {clock : Clock} {db' : Db} {prepared : PreparedDelivery}
    (h :
      CineGate.prepare ((initial settings .empty).after parser events).db render sessionId clock =
        .ok (db', .inl prepared)) :
    ∃ r row s,
      ((initial settings .empty).after parser events).db.rewardSessions.find? sessionId = some r ∧
      Created parser (initial settings .empty) events sessionId r.movieId r.quality ∧
      db'.archive = ((initial settings .empty).after parser events).db.archive ∧
      db'.archive.qualities.find? r.movieQualityId = some row ∧
      row.movieId = r.movieId ∧
      row.archiveChannelId = prepared.archiveChannelId ∧
      row.archiveMessageId = prepared.archiveMessageId ∧
      db'.archive.snapshot? prepared.archiveChannelId prepared.archiveMessageId = some s ∧
      s.conflicted = false ∧
      (s.mediaKind = .video ∨ s.mediaKind = .document) ∧
      extractQuality (boundedCaption s.caption) = some r.quality := by
  have hw : ((initial settings .empty).after parser events).Sound :=
    sound_after settings .empty events
  have harchive : ((initial settings .empty).after parser events).db.archive.Sound :=
    archive_sound_after settings hevents
  obtain ⟨r, d, movie, row, hclaimed⟩ := prepare_claimed hw.db hw.uniqueKeys h
  have horigin := session_origin settings .empty events hclaimed.reward
  obtain ⟨hmovie, hquality, hconfidence⟩ :=
    bindingReason_eq_none hclaimed.bound hclaimed.rowFound
  obtain ⟨s, hs, hshows⟩ :=
    harchive.backed row (KeyedTable.mem_of_find? hclaimed.rowFound) hconfidence
  rw [hquality] at hshows
  refine ⟨r, row, s, hclaimed.reward, horigin, hclaimed.archive, ?_, hmovie,
    hclaimed.archiveChannelId.symm, hclaimed.archiveMessageId.symm, ?_, hshows.unconflicted,
    hshows.mediaKind, hshows.quality⟩
  · rw [hclaimed.archive]
    exact hclaimed.rowFound
  · rw [hclaimed.archive, hclaimed.archiveChannelId, hclaimed.archiveMessageId]
    exact hs

end

section Witness

attribute [local instance] UnicodeData.asciiArabic

/-- A poster and its file reach the archive channel. -/
def published : List Event :=
  [.ingest 7 {
      messageId := 1, mediaKind := .photo, caption := some "الفيلم: Up\nالسنة: 2009".toList
      messageId_pos := Nat.one_pos },
    .ingest 7 {
      messageId := 2, mediaKind := .video, caption := some "Up 2009 #720p".toList
      messageId_pos := Nat.two_pos }]

/-- The settings of a bot whose archive is channel 7. -/
def channelSettings : Settings := { archiveChannelId := some (.int 7) }

/-- The user of `earning` is handed out message 2. -/
theorem delivered_file_is_purchased_published :
    ∃ s,
      ((initial channelSettings .empty).after {} (published ++ earning)).db.archive.snapshot? 7 2 =
        some s ∧ s.conflicted = false ∧ extractQuality (boundedCaption s.caption) = some .p720 := by
  have hevents : ∀ archive, Event.changeArchive archive ∉ published ++ earning := by
    intro archive
    simp [published, earning]
  have hclaim : ((CineGate.prepare ((initial channelSettings .empty).after {}
      (published ++ earning)).db (fun r => some ⟨r.movie, []⟩) 40 (atSecond 30)).toOption.map
        fun value => value.2.getLeft?.map fun prepared =>
          (prepared.archiveChannelId, prepared.archiveMessageId)) = some (some (7, 2)) := by
    decide +kernel
  have hreward : (((initial channelSettings .empty).after {}
      (published ++ earning)).db.rewardSessions.find? 40).map RewardSession.quality =
        some .p720 := by
    decide +kernel
  cases h : CineGate.prepare ((initial channelSettings .empty).after {}
      (published ++ earning)).db (fun r => some ⟨r.movie, []⟩) 40 (atSecond 30) with
  | error error => simp [h, Except.toOption] at hclaim
  | ok value =>
      obtain ⟨db', prepared | result⟩ := value
      · rw [h] at hclaim
        obtain ⟨hchannel, hmessage⟩ : prepared.archiveChannelId = 7 ∧
            prepared.archiveMessageId = 2 := by
          simpa [Except.toOption] using hclaim
        obtain ⟨r, row, s, hr, -, harchive, -, -, -, -, hs, hconflicted, -, hquality⟩ :=
          delivered_file_is_purchased {} channelSettings hevents h
        rw [hr] at hreward
        rw [harchive, hchannel, hmessage] at hs
        exact ⟨s, hs, hconflicted, hquality.trans (congrArg some (Option.some.inj hreward))⟩
      · rw [h] at hclaim
        simp [Except.toOption] at hclaim

end Witness

end World

end CineGate
