/-
**What the reward sessions promise.**

* `World.earned_entitlement_is_kept` — a rewarded session keeps its reward, whatever happens later;
* `World.status_follows_from_proofs` — the status of a session is determined by its two proofs;
* `World.one_slot_for_each_user` — a user has one ad slot and one open request for a binding.
-/

import CineGate.SystemInvariant

set_option relaxedAutoImplicit false
set_option autoImplicit false

namespace CineGate

namespace World

/-! ### An earned entitlement is kept -/

section Kept

variable [UnicodeData] (parser : ArchiveParser) (settings : Settings) (archive : ArchiveTables)

/-- **Earned entitlement is never lost.**  A rewarded session stays rewarded with its binding and
its proofs, a delivered one stays delivered, and a session becomes delivered only when the attempt
that completes is one of its own whose message Telegram has copied. -/
theorem earned_entitlement_is_kept (before : List Event) {sessionId : ℕ} {r : RewardSession}
    (hr : ((initial settings archive).after parser before).db.rewardSessions.find? sessionId =
      some r) :
    (∀ events, ∃ r', ((initial settings archive).after parser
        (before ++ events)).db.rewardSessions.find? sessionId = some r' ∧
      (r.status = .rewarded →
        r'.status ∈ [RewardStatus.rewarded, .unavailable, .delivering, .delivered] ∧
        r'.telegramUserId = r.telegramUserId ∧ r'.movieId = r.movieId ∧
        r'.movieQualityId = r.movieQualityId ∧ r'.quality = r.quality ∧
        r'.clientCompletedAt = r.clientCompletedAt ∧
        r'.providerConfirmedAt = r.providerConfirmedAt) ∧
      (r.status = .delivered → r'.status = .delivered) ∧
      (r.unavailableAt.isSome → r'.unavailableAt.isSome)) ∧
    ∀ event r', ((initial settings archive).after parser
        (before ++ [event])).db.rewardSessions.find? sessionId = some r' →
      r.status ≠ .delivered → r'.status = .delivered →
      ∃ attemptId clock messageId a, event = .complete attemptId clock ∧
        ((initial settings archive).after parser before).attempts.find? attemptId = some a ∧
        a.sessionId = sessionId ∧ .copyMessage attemptId (.copied messageId) ∈ before := by
  have hw : ((initial settings archive).after parser before).Sound :=
    sound_after settings archive before
  have horigin : ∀ {a messageId}, a ∈ ((initial settings archive).after parser before).attempts →
      a.phase = .copied messageId → .copyMessage a.id (.copied messageId) ∈ before :=
    copyMessage_mem_of_copied settings archive before
  simp only [after, Transition.run_append, Transition.run_cons, Transition.run_nil]
    at hw hr horigin ⊢
  generalize Transition.run (step parser) (initial settings archive) before = w at *
  have he : w.db.entitlement? sessionId = some ⟨r, w.db.deliveryOf? sessionId⟩ :=
    Db.entitlement?_eq_some.2 ⟨hr, rfl⟩
  have hwf := hw.db.wellFormed _ _ he
  constructor
  · intro events
    obtain ⟨e', he', hcontinues⟩ : ∃ e', (Transition.run (step parser) w events).db.entitlement?
        sessionId = some e' ∧ _ := hw.continues_after events he
    refine ⟨e'.reward, (Db.entitlement?_eq_some.1 he').1, fun hrewarded => ?_,
      hcontinues.delivered, fun hsome => ?_⟩
    · have hisRewarded : r.isRewarded := RewardSession.isRewarded_iff.2 (Or.inl hrewarded)
      obtain ⟨hclient, hprovider⟩ := Bool.and_eq_true_iff.1 (hwf.proofs.isProven_iff.2 hisRewarded)
      exact ⟨of_decide_eq_true (hcontinues.rewarded hisRewarded), hcontinues.telegramUserId,
        hcontinues.movieId, hcontinues.movieQualityId, hcontinues.quality,
        hcontinues.clientCompletedAt hclient, hcontinues.providerConfirmedAt hprovider⟩
    · rw [hcontinues.unavailableAt hsome]
      exact hsome
  · intro event r' hr' hnot hdelivered
    -- among the moves of a session only a finalised send ends in `delivered`
    have hsteps := (step_moves parser hw event).1.steps sessionId
    rw [he] at hsteps
    have he' : (step parser w event).db.entitlement? sessionId =
        some ⟨r', (step parser w event).db.deliveryOf? sessionId⟩ :=
      Db.entitlement?_eq_some.2 ⟨hr', rfl⟩
    obtain ⟨messageId, attemptId, clock, a, hevent, ha, hsession, hphase⟩ :=
      hsteps.copied_of_delivered hwf he' hnot hdelivered
    obtain rfl : a.id = attemptId := KeyedTable.key_of_find? ha
    exact ⟨a.id, clock, messageId, a, hevent, ha, hsession,
      horigin (KeyedTable.mem_of_find? ha) hphase⟩

end Kept

section Witness

attribute [local instance] UnicodeData.asciiArabic

/-- A channel with one indexed movie and one file of it. -/
def oneFile : ArchiveTables where
  snapshots := .empty
  movies := .insert .empty {
    id := 1, archiveChannelId := 7, posterMessageId := 1, displayTitle := "Up".toList
    normalizedTitle := "up".toList, year := some 2009, parserStyle := .modern, status := .indexed
    rawPosterCaption := "Up".toList, parserConfidence := 90, ownerNotificationMessageId := none
    ownerNotificationQualityCount := 0 }
  qualities := .insert .empty {
    id := 1, movieId := 1, archiveChannelId := 7, archiveMessageId := 2, quality := .p720
    rawCaption := "Up 720p".toList, extractedTitle := none, normalizedTitle := none
    extractedYear := none, parserConfidence := 90 }

/-- The clock `n` seconds after the epoch. -/
def atSecond (n : ℤ) : Clock := ⟨seconds n, seconds n⟩

/-- User 5 asks for the file of `oneFile`, watches the ad and is confirmed by the provider. -/
def earning : List Event :=
  [.getOrCreate 5 1 "720p".toList 40 (atSecond 0), .markClientCompleted 40 5 (atSecond 10),
    .markProviderConfirmed 5 (atSecond 20)]

/-- The session `earning` ends with. -/
def earnedSession : RewardSession where
  id := 40
  telegramUserId := 5
  movieId := 1
  movieQualityId := 1
  quality := .p720
  status := .rewarded
  promptMessageId := none
  promptClaimedAt := none
  createdAt := seconds 0
  expiresAt := seconds 600
  clientCompletedAt := some (seconds 10)
  providerConfirmedAt := some (seconds 20)
  rewardedAt := some (seconds 20)
  unavailableAt := none
  unavailableReason := none
  deliveryStartedAt := none
  deliveredAt := none

/-- A run that goes on long after the session would have expired. -/
theorem earned_entitlement_is_kept_late :
    ∃ r', ((initial {} oneFile).after {} (earning ++ [.markProviderConfirmed 5 (atSecond 9000),
        .getOrCreate 5 1 "720p".toList 41 (atSecond 9001)])).db.rewardSessions.find? 40 = some r' ∧
      r'.status ∈ [RewardStatus.rewarded, .unavailable, .delivering, .delivered] := by
  have h : ((initial {} oneFile).after {} earning).db.rewardSessions.find? 40 =
      some earnedSession := by decide +kernel
  obtain ⟨r', hr', hrewarded, -⟩ := (earned_entitlement_is_kept {} {} oneFile earning h).1
      [.markProviderConfirmed 5 (atSecond 9000), .getOrCreate 5 1 "720p".toList 41 (atSecond 9001)]
  exact ⟨r', hr', (hrewarded rfl).1⟩

end Witness

/-! ### The status follows from the proofs -/

/-- The two proofs that the ad was watched. -/
inductive Proof
  | client
  | provider
deriving DecidableEq, Repr

/-- The event that brings a proof for a session. -/
def Proof.event (sessionId : ℕ) (telegramUserId : ℤ) (clock : Clock) : Proof → Event
  | client => .markClientCompleted sessionId telegramUserId clock
  | provider => .markProviderConfirmed telegramUserId clock

/-- What a proof does to a session that is open for it. -/
def Proof.mark (now : Instant) : Proof → RewardSession → RewardSession
  | client => RewardSession.markClient now
  | provider => RewardSession.markProvider now

/-- The session can still be proven: it is active and has not run out. -/
def Provable (r : RewardSession) (now : Instant) : Prop := r.isActive ∧ now < r.expiresAt

section Provable

variable {r : RewardSession} {now : Instant}

theorem Provable.isOverdue (h : Provable r now) : r.isOverdue now = false := by
  simp [RewardSession.isOverdue, not_le.2 h.2]

theorem Provable.not_expired (h : Provable r now) : r.status ≠ .expired := by
  intro hexpired
  have hactive := h.1
  simp [RewardSession.isActive, hexpired, activeStatuses] at hactive

theorem Provable.expireFor (h : Provable r now) {telegramUserId : ℤ} :
    r.expireFor telegramUserId now = r := by
  simp [RewardSession.expireFor, h.isOverdue]

/-- The client's claim reaches the session. -/
theorem markClientCompleted_ok {w : World} {clock : Clock} (hw : w.Sound)
    (hr : w.db.rewardSessions.find? r.id = some r) (hp : Provable r clock.utcnow) :
    markClientCompleted w.db r.id r.telegramUserId clock =
      .ok (w.db.updateReward r.id (RewardSession.markClient clock.utcnow),
        (r.markClient clock.utcnow).view) := by
  have hcommits : Commits _ (fun db' _ => w.db.Updates (fun _ _ => True) db')
      (markClientCompleted w.db r.id r.telegramUserId clock) :=
    markClientCompleted_commits hw.db.toLinked
  have hne := hcommits.ne_duplicate fun db' _ hupdates =>
    (hw.slot.of_updates hw.db hupdates).uniqueKeys hupdates.linked
  have hresult : markClientCompleted w.db r.id r.telegramUserId clock =
      (w.db.updateReward r.id (RewardSession.markClient clock.utcnow)).commitReward
        (r.markClient clock.utcnow).view := by
    simp [markClientCompleted, withCurrent, requireCurrent, hr, hp.not_expired, hp.isOverdue]
  rw [hresult] at hne ⊢
  exact Db.commitReward_eq_ok hne

/-- The active session of a user is found. -/
theorem activeSession?_eq {db : Db} (hslot : db.OneSlot) (hr : r ∈ db.rewardSessions)
    (hactive : r.isActive) : db.activeSession? r.telegramUserId = some r := by
  cases hs : db.activeSession? r.telegramUserId with
  | none =>
      have hempty := List.argmax_eq_none.1 hs
      have hmem : r ∈ ([] : List RewardSession) := by
        rw [← hempty]
        exact List.mem_filter.2 ⟨hr, by simp [hactive]⟩
      cases hmem
  | some s =>
      obtain ⟨hmem, huser, hsactive⟩ := Db.mem_of_activeSession? hs
      rw [hslot.slot r hr s hmem hactive hsactive huser]

/-- The provider's callback reaches the active session of its user. -/
theorem markProviderConfirmed_ok {w : World} {clock : Clock} (hw : w.Sound)
    (hr : w.db.rewardSessions.find? r.id = some r) (hp : Provable r clock.utcnow) :
    markProviderConfirmed w.db r.telegramUserId clock =
      .ok ((w.db.expireOverdue r.telegramUserId clock.utcnow).updateReward r.id
        (RewardSession.markProvider clock.utcnow), some (r.markProvider clock.utcnow).view) := by
  have hcommits : Commits _ (fun db' _ => w.db.Updates (fun _ _ => True) db')
      (markProviderConfirmed w.db r.telegramUserId clock) :=
    markProviderConfirmed_commits hw.db.toLinked
  have hne := hcommits.ne_duplicate fun db' _ hupdates =>
    (hw.slot.of_updates hw.db hupdates).uniqueKeys hupdates.linked
  have hexpire : w.db.Updates (fun _ _ => True)
      (w.db.expireOverdue r.telegramUserId clock.utcnow) :=
    hw.db.updates_expireOverdue r.telegramUserId clock.utcnow
  have hmem : r ∈ (w.db.expireOverdue r.telegramUserId clock.utcnow).rewardSessions :=
    List.mem_map.2 ⟨r, KeyedTable.mem_of_find? hr, hp.expireFor⟩
  have hfound := activeSession?_eq (hw.slot.of_updates hw.db hexpire) hmem hp.1
  have hresult : markProviderConfirmed w.db r.telegramUserId clock =
      ((w.db.expireOverdue r.telegramUserId clock.utcnow).updateReward r.id
        (RewardSession.markProvider clock.utcnow)).commitReward
          (some (r.markProvider clock.utcnow).view) := by
    simp [markProviderConfirmed, hfound]
  rw [hresult] at hne ⊢
  exact Db.commitReward_eq_ok hne

/-- A proof reaches the session it is for. -/
theorem find?_proof [UnicodeData] {parser : ArchiveParser} {w : World} {clock : Clock}
    (hw : w.Sound) (hr : w.db.rewardSessions.find? r.id = some r) (hp : Provable r clock.utcnow)
    (proof : Proof) :
    (step parser w (proof.event r.id r.telegramUserId clock)).db.rewardSessions.find? r.id =
      some (proof.mark clock.utcnow r) := by
  cases proof with
  | client =>
      simp only [Proof.event, step, commit, markClientCompleted_ok hw hr hp, Proof.mark]
      simp [Db.updateReward, hr]
  | provider =>
      simp only [Proof.event, step, commit, markProviderConfirmed_ok hw hr hp, Proof.mark]
      simp [Db.updateReward, Db.expireOverdue, KeyedTable.find?_modify, hr, hp.expireFor]

/-- A session that is open for proofs stays open for them. -/
theorem isActive_refreshStatus (h : r.isActive) : (r.refreshStatus now).isActive := by
  simp only [RewardSession.isActive, Bool.and_eq_true] at h
  unfold RewardSession.refreshStatus
  split
  · simpa only [RewardSession.isActive, Bool.and_eq_true] using h
  · split <;> simpa [RewardSession.isActive, activeStatuses] using h.2

theorem status_refreshStatus_delivering :
    (r.refreshStatus now).status = .delivering ↔ r.status = .delivering := by
  unfold RewardSession.refreshStatus
  split
  · rfl
  · next hs =>
      have hnot : r.status ≠ .delivering := by simp_all
      split <;> simp [hnot]

/-- What a proof leaves and what it writes. -/
theorem mark_spec (h : r.isActive) (now : Instant) (proof : Proof) :
    (proof.mark now r).isActive ∧ (proof.mark now r).id = r.id ∧
      (proof.mark now r).telegramUserId = r.telegramUserId ∧
      (proof.mark now r).expiresAt = r.expiresAt ∧
      ((proof.mark now r).status = .delivering ↔ r.status = .delivering) ∧
      ((proof.mark now r).clientCompletedAt.isSome ↔
        r.clientCompletedAt.isSome ∨ proof = .client) ∧
      ((proof.mark now r).providerConfirmedAt.isSome ↔
        r.providerConfirmedAt.isSome ∨ proof = .provider) := by
  cases proof with
  | client =>
      refine ⟨isActive_refreshStatus h, ?_, ?_, ?_, status_refreshStatus_delivering, ?_, ?_⟩
      · simp [Proof.mark]
      · simp [Proof.mark, RewardSession.markClient]
      · simp [Proof.mark, RewardSession.markClient]
      · cases hc : r.clientCompletedAt <;> simp [Proof.mark, RewardSession.markClient, hc]
      · simp [Proof.mark, RewardSession.markClient]
  | provider =>
      refine ⟨isActive_refreshStatus h, ?_, ?_, ?_, status_refreshStatus_delivering, ?_, ?_⟩
      · simp [Proof.mark]
      · simp [Proof.mark, RewardSession.markProvider]
      · simp [Proof.mark, RewardSession.markProvider]
      · simp [Proof.mark, RewardSession.markProvider]
      · cases hp : r.providerConfirmedAt <;> simp [Proof.mark, RewardSession.markProvider, hp]

end Provable

/-- The status of an active session. -/
def proofStatus (delivering client provider : Prop) [Decidable delivering] [Decidable client]
    [Decidable provider] : RewardStatus :=
  if delivering then .delivering
  else if client then if provider then .rewarded else .clientCompleted
  else if provider then .providerConfirmed else .pending

/-- The status of an active session follows from its proofs, but for a delivery under way. -/
theorem status_of_isActive {r : RewardSession} (hp : r.ProofsFit) (hactive : r.isActive) :
    r.status = proofStatus (r.status = .delivering) r.clientCompletedAt.isSome
      r.providerConfirmedAt.isSome := by
  revert hp hactive
  cases hs : r.status <;> cases hc : r.clientCompletedAt <;> cases hq : r.providerConfirmedAt <;>
    simp [RewardSession.ProofsFit, RewardSession.isProven, RewardSession.isActive, activeStatuses,
      proofStatus, hs, hc, hq]

section Outcome

variable [UnicodeData] {parser : ArchiveParser}

/-- Proofs in any order, each with the clock of its transaction. -/
def proofEvents (r : RewardSession) (proofs : List (Proof × Clock)) : List Event :=
  proofs.map fun proof => proof.1.event r.id r.telegramUserId proof.2

variable (parser) in
/-- What a run of timely proofs makes of a session depends only on which proofs it contains. -/
theorem after_proofs (proofs : List (Proof × Clock)) {w : World} {r : RewardSession} (hw : w.Sound)
    (hr : w.db.rewardSessions.find? r.id = some r) (hactive : r.isActive)
    (htimely : ∀ proof ∈ proofs, proof.2.utcnow < r.expiresAt) :
    ∃ r', (w.after parser (proofEvents r proofs)).db.rewardSessions.find? r.id = some r' ∧
      r'.isActive ∧ (r'.status = .delivering ↔ r.status = .delivering) ∧
      (r'.clientCompletedAt.isSome ↔
        r.clientCompletedAt.isSome ∨ .client ∈ proofs.map Prod.fst) ∧
      (r'.providerConfirmedAt.isSome ↔
        r.providerConfirmedAt.isSome ∨ .provider ∈ proofs.map Prod.fst) := by
  induction proofs generalizing w r with
  | nil => exact ⟨r, hr, hactive, Iff.rfl, by simp, by simp⟩
  | cons proof proofs ih =>
      obtain ⟨proof, clock⟩ := proof
      have hprovable : Provable r clock.utcnow := ⟨hactive, htimely _ List.mem_cons_self⟩
      have hr₁ : (step parser w
          (proof.event r.id r.telegramUserId clock)).db.rewardSessions.find? r.id =
            some (proof.mark clock.utcnow r) := find?_proof hw hr hprovable proof
      have hspec := mark_spec hactive clock.utcnow proof
      generalize proof.mark clock.utcnow r = r₁ at *
      obtain ⟨hactive₁, hid, huser, hexpires, hdelivering₁, hclient₁, hprovider₁⟩ := hspec
      obtain ⟨r', hr', hactive', hdelivering, hclient, hprovider⟩ :=
        ih (hw.step (proof.event r.id r.telegramUserId clock)) (by rw [hid]; exact hr₁)
          hactive₁ fun p hp => hexpires.symm ▸ htimely p (List.mem_cons_of_mem _ hp)
      refine ⟨r', ?_, hactive', hdelivering.trans hdelivering₁, ?_, ?_⟩
      · simpa [proofEvents, hid, huser] using hr'
      · rw [hclient, hclient₁, List.map_cons, List.mem_cons, or_assoc, eq_comm (a := proof)]
      · rw [hprovider, hprovider₁, List.map_cons, List.mem_cons, or_assoc, eq_comm (a := proof)]

theorem proofsFit_after {w : World} (hw : w.Sound) {events : List Event} {sessionId : ℕ}
    {r : RewardSession}
    (hr : (w.after parser events).db.rewardSessions.find? sessionId = some r) : r.ProofsFit := by
  have hw' : (w.after parser events).Sound :=
    Transition.run_invariant (fun _ event hw => hw.step event) hw events
  exact (hw'.db.wellFormed sessionId ⟨r, _⟩ (Db.entitlement?_eq_some.2 ⟨hr, rfl⟩)).proofs

/-- **Dual proof.**  In every reachable state the status of a session is determined by its two
proofs, an expired session lacks one, an attempt belongs to a session with both, a proof once
recorded is never rewritten, and what timely proofs lead to does not depend on their order or on how
often they come. -/
theorem status_follows_from_proofs (settings : Settings) (archive : ArchiveTables)
    (events : List Event) :
    (∀ sessionId r, ((initial settings archive).after parser events).db.rewardSessions.find?
        sessionId = some r →
      (r.status ≠ .expired →
        (r.status = .pending ↔ r.clientCompletedAt = none ∧ r.providerConfirmedAt = none) ∧
        (r.status = .clientCompleted ↔
          r.clientCompletedAt.isSome ∧ r.providerConfirmedAt = none) ∧
        (r.status = .providerConfirmed ↔
          r.clientCompletedAt = none ∧ r.providerConfirmedAt.isSome) ∧
        (r.status ∈ [RewardStatus.rewarded, .unavailable, .delivering, .delivered] ↔
          r.clientCompletedAt.isSome ∧ r.providerConfirmedAt.isSome)) ∧
      (r.status = .expired → ¬ (r.clientCompletedAt.isSome ∧ r.providerConfirmedAt.isSome)) ∧
      (∀ later, ∃ r', ((initial settings archive).after parser
          (events ++ later)).db.rewardSessions.find? sessionId = some r' ∧
        (r.clientCompletedAt.isSome → r'.clientCompletedAt = r.clientCompletedAt) ∧
        (r.providerConfirmedAt.isSome → r'.providerConfirmedAt = r.providerConfirmedAt)) ∧
      (r.isActive → ∀ proofs proofs' : List (Proof × Clock),
        (∀ proof ∈ proofs ++ proofs', proof.2.utcnow < r.expiresAt) →
        (∀ proof, proof ∈ proofs.map Prod.fst ↔ proof ∈ proofs'.map Prod.fst) →
        ∃ s s', ((initial settings archive).after parser
            (events ++ proofEvents r proofs)).db.rewardSessions.find? sessionId = some s ∧
          ((initial settings archive).after parser
            (events ++ proofEvents r proofs')).db.rewardSessions.find? sessionId = some s' ∧
          s.status = s'.status)) ∧
    ∀ a ∈ ((initial settings archive).after parser events).attempts,
      ∃ r, ((initial settings archive).after parser events).db.rewardSessions.find? a.sessionId =
        some r ∧ r.clientCompletedAt.isSome ∧ r.providerConfirmedAt.isSome := by
  have hw : ((initial settings archive).after parser events).Sound :=
    sound_after settings archive events
  simp only [after, Transition.run_append] at hw ⊢
  generalize Transition.run (step parser) (initial settings archive) events = w at *
  constructor
  · intro sessionId r hr
    have he : w.db.entitlement? sessionId = some ⟨r, w.db.deliveryOf? sessionId⟩ :=
      Db.entitlement?_eq_some.2 ⟨hr, rfl⟩
    have hwf := hw.db.wellFormed _ _ he
    obtain rfl : r.id = sessionId := KeyedTable.key_of_find? hr
    refine ⟨fun hexpired => hwf.proofs.status_iff hexpired, fun hexpired => ?_, fun later => ?_,
      fun hactive proofs proofs' htimely hsame => ?_⟩
    · have hnot : ¬ r.isProven := by
        simpa only [RewardSession.ProofsFit, hexpired] using hwf.proofs
      exact fun h => hnot (Bool.and_eq_true_iff.2 h)
    · obtain ⟨e', he', hcontinues⟩ : ∃ e', (Transition.run (step parser) w later).db.entitlement?
          r.id = some e' ∧ _ := hw.continues_after later he
      exact ⟨e'.reward, (Db.entitlement?_eq_some.1 he').1, hcontinues.clientCompletedAt,
        hcontinues.providerConfirmedAt⟩
    · obtain ⟨s, hs, hsactive, hsdelivering, hsclient, hsprovider⟩ :=
        after_proofs parser proofs hw hr hactive
          fun proof hproof => htimely proof (List.mem_append_left _ hproof)
      obtain ⟨s', hs', hsactive', hsdelivering', hsclient', hsprovider'⟩ :=
        after_proofs parser proofs' hw hr hactive
          fun proof hproof => htimely proof (List.mem_append_right _ hproof)
      refine ⟨s, s', hs, hs', ?_⟩
      have hfit := proofsFit_after hw hs
      have hfit' := proofsFit_after hw hs'
      -- the status of an active session is a function of its two proofs
      rw [status_of_isActive hfit hsactive, status_of_isActive hfit' hsactive']
      simp only [hsdelivering, hsdelivering', hsclient, hsclient', hsprovider, hsprovider', hsame]
  · intro a ha
    obtain ⟨r, d, he, hrewarded, -⟩ := hw.attempts a ha
    have hproven := (hw.db.wellFormed _ _ he).proofs.isProven_iff.2 hrewarded
    exact ⟨r, (Db.entitlement?_eq_some.1 he).1, Bool.and_eq_true_iff.1 hproven⟩

end Outcome

/-! ### One slot for each user -/

/-- The transaction of the event is refused by a unique index. -/
def RefusedByIndex (w : World) : Event → Prop
  | .getOrCreate telegramUserId movieId quality newId clock =>
      CineGate.getOrCreate w.db telegramUserId movieId quality newId clock =
        .error (.database .uniqueViolation)
  | .get sessionId clock => CineGate.get w.db sessionId clock = .error (.database .uniqueViolation)
  | .claimPrompt sessionId telegramUserId clock =>
      CineGate.claimPrompt w.db sessionId telegramUserId clock =
        .error (.database .uniqueViolation)
  | .completePrompt sessionId telegramUserId messageId clock =>
      CineGate.completePrompt w.db sessionId telegramUserId messageId clock =
        .error (.database .uniqueViolation)
  | .resetPromptClaim sessionId telegramUserId =>
      CineGate.resetPromptClaim w.db sessionId telegramUserId =
        .error (.database .uniqueViolation)
  | .markClientCompleted sessionId telegramUserId clock =>
      CineGate.markClientCompleted w.db sessionId telegramUserId clock =
        .error (.database .uniqueViolation)
  | .markProviderConfirmed telegramUserId clock =>
      CineGate.markProviderConfirmed w.db telegramUserId clock =
        .error (.database .uniqueViolation)
  | .prepare sessionId render clock =>
      CineGate.prepare w.db render sessionId clock = .error (.database .uniqueViolation)
  | .complete attemptId clock =>
      ∃ a, w.attempts.find? attemptId = some a ∧
        ((∃ messageId, a.phase = .copied messageId ∧
          CineGate.finalizeSent w.db a.sessionId a.prepared.deliveryId messageId
            a.prepared.deleteSeconds clock = .error (.database .uniqueViolation)) ∨
        ∃ error reason, a.phase = .refused error ∧
          CineGate.resetFailedSend w.db a.sessionId a.prepared.deliveryId error.text reason clock =
            .error (.database .uniqueViolation))
  | .recoverStaleSends staleSeconds locked clock =>
      CineGate.recoverStaleSends w.db staleSeconds locked clock =
        .error (.database .uniqueViolation)
  | .recoverStaleDeletions staleSeconds clock =>
      CineGate.recoverStaleDeletions w.db staleSeconds clock = .error (.database .uniqueViolation)
  | .claimDueDeletions limit locked clock =>
      CineGate.claimDueDeletions w.db limit locked clock = .error (.database .uniqueViolation)
  | .reportDeletion taskId clock =>
      ∃ task error, w.tasks.find? taskId = some task ∧
        (markDeleted w.db task.item.deliveryId clock = .error (.database .uniqueViolation) ∨
        markDeleteFailed w.db task.item.deliveryId error = .error (.database .uniqueViolation) ∨
        rescheduleDelete w.db task.item.deliveryId error clock =
          .error (.database .uniqueViolation))
  | .copyMessage .. | .deleteMessage .. | .ingest .. | .reconcileEdit .. | .changeArchive ..
  | .changeSettings .. => False

section Slots

variable {w : World}

/-- **No transaction runs into a unique index**, if new sessions get identifiers of their own. -/
theorem Sound.not_refusedByIndex (hw : w.Sound) {event : Event}
    (hnew : ∀ telegramUserId movieId quality newId clock,
      event = .getOrCreate telegramUserId movieId quality newId clock →
        w.db.rewardSessions.find? newId = none) : ¬ w.RefusedByIndex event := by
  cases event with
  | getOrCreate telegramUserId movieId quality newId clock =>
      have hcommits : Commits _ (fun db' _ => w.db.Moves (fun _ _ => True) db' ∧ db'.OneSlot)
          (getOrCreate w.db telegramUserId movieId quality newId clock) ∨ _ :=
        getOrCreate_commits hw.db hw.slot
      rcases hcommits with hcommits | ⟨htaken, -⟩
      · exact hcommits.ne_duplicate fun _ _ h => h.2.uniqueKeys h.1.linked
      · exact absurd (hnew _ _ _ _ _ rfl) htaken
  | get sessionId clock => exact hw.not_refused (get_commits hw.db.toLinked hw.uniqueKeys)
  | claimPrompt sessionId telegramUserId clock =>
      exact hw.not_refused (claimPrompt_commits hw.db.toLinked hw.uniqueKeys)
  | completePrompt sessionId telegramUserId messageId clock =>
      exact hw.not_refused (completePrompt_commits hw.db.toLinked hw.uniqueKeys)
  | resetPromptClaim sessionId telegramUserId =>
      exact hw.not_refused (resetPromptClaim_commits hw.db.toLinked hw.uniqueKeys)
  | markClientCompleted sessionId telegramUserId clock =>
      exact hw.not_refused (markClientCompleted_commits hw.db.toLinked)
  | markProviderConfirmed telegramUserId clock =>
      exact hw.not_refused (markProviderConfirmed_commits hw.db.toLinked)
  | prepare sessionId render clock =>
      exact hw.not_refused ((prepare_commits hw.db hw.uniqueKeys).mono fun _ _ h => h.1)
  | complete attemptId clock =>
      -- the attempt belongs to a session that has been earned, copied or refused
      rintro ⟨a, ha, h⟩
      obtain ⟨r, d, he, hr, hid⟩ := hw.attempts a (KeyedTable.mem_of_find? ha)
      rw [← hid] at h
      rcases h with ⟨messageId, -, h⟩ | ⟨error, reason, -, h⟩
      · exact hw.not_refused (finalizeSent_commits hw.db.toLinked hw.uniqueKeys he hr trivial) h
      · exact hw.not_refused (resetFailedSend_commits hw.db.toLinked he hr) h
  | recoverStaleSends staleSeconds locked clock =>
      exact hw.not_refused (recoverStaleSends_commits hw.db.toLinked)
  | recoverStaleDeletions staleSeconds clock =>
      exact hw.not_refused (recoverStaleDeletions_commits hw.db.toLinked)
  | claimDueDeletions limit locked clock =>
      exact hw.not_refused (claimDueDeletions_commits hw.db.toLinked)
  | reportDeletion taskId clock =>
      rintro ⟨task, error, -, h | h | h⟩
      · exact hw.not_refused (markDeleted_commits hw.db.toLinked) h
      · exact hw.not_refused (markDeleteFailed_commits hw.db.toLinked) h
      · exact hw.not_refused (rescheduleDelete_commits hw.db.toLinked) h
  | _ => exact id

/-- What the provider's callback for a user does to a session: nothing, the expiry of an overdue
session of that user that lacks a proof, or the proof of the session that is its target. -/
def ConfirmedFor (telegramUserId : ℤ) (now : Instant) (target : Option ℕ) (r r' : RewardSession) :
    Prop :=
  r' = r ∨
    (r.telegramUserId = telegramUserId ∧ r.status ∈ expirableStatuses ∧ r.expiresAt ≤ now ∧
      ¬ (r.clientCompletedAt.isSome ∧ r.providerConfirmedAt.isSome) ∧ r.unavailableAt = none ∧
      r' = { r with status := .expired }) ∨
    (target = some r.id ∧ r.telegramUserId = telegramUserId ∧ r.status ∈ activeStatuses ∧
      r.unavailableAt = none ∧ r' = r.markProvider now)

theorem expireFor_confirmedFor {r : RewardSession} {telegramUserId : ℤ} {now : Instant}
    {target : Option ℕ} (hproofs : r.ProofsFit) (havailable : r.AvailabilityFits) :
    ConfirmedFor telegramUserId now target r (r.expireFor telegramUserId now) := by
  unfold RewardSession.expireFor
  split
  · next h =>
      simp only [RewardSession.isOverdue, Bool.and_eq_true, decide_eq_true_eq] at h
      obtain ⟨huser, hstatus, hexpires⟩ := h
      have hfit : ¬ r.isProven ∧ r.unavailableAt = none := by
        rw [hproofs.isProven_iff, RewardSession.isRewarded_iff]
        revert hstatus havailable
        cases hs : r.status <;> simp [expirableStatuses, RewardSession.AvailabilityFits, hs]
      exact .inr (.inl ⟨huser, hstatus, hexpires,
        fun hproven => hfit.1 (Bool.and_eq_true_iff.2 hproven), hfit.2, rfl⟩)
  · exact .inl rfl

/-- The callback of the provider for a user succeeds and has one possible target. -/
theorem Sound.markProviderConfirmed_spec (hw : w.Sound) (telegramUserId : ℤ) (clock : Clock) :
    ∃ db' view target, markProviderConfirmed w.db telegramUserId clock = .ok (db', view) ∧
      db'.deliveries = w.db.deliveries ∧
      (∀ r ∈ w.db.rewardSessions, r.telegramUserId = telegramUserId → r.isActive →
        r.isOverdue clock.utcnow = false → target = some r.id) ∧
      ∀ sessionId r, w.db.rewardSessions.find? sessionId = some r →
        ∃ r', db'.rewardSessions.find? sessionId = some r' ∧
          ConfirmedFor telegramUserId clock.utcnow target r r' := by
  have hne : markProviderConfirmed w.db telegramUserId clock ≠
      .error (.database .uniqueViolation) :=
    hw.not_refused (markProviderConfirmed_commits hw.db.toLinked)
  have hfind : ∀ sessionId r, w.db.rewardSessions.find? sessionId = some r →
      (w.db.expireOverdue telegramUserId clock.utcnow).rewardSessions.find? sessionId =
        some (r.expireFor telegramUserId clock.utcnow) := by
    intro sessionId r hr
    simp [Db.expireOverdue, KeyedTable.find?_modify, hr]
  have hfit : ∀ {sessionId r}, w.db.rewardSessions.find? sessionId = some r →
      r.ProofsFit ∧ r.AvailabilityFits := by
    intro sessionId r hr
    have hwf := hw.db.wellFormed sessionId ⟨r, _⟩ (Db.entitlement?_eq_some.2 ⟨hr, rfl⟩)
    exact ⟨hwf.proofs, hwf.availability⟩
  have hexpire : w.db.Updates (fun _ _ => True)
      (w.db.expireOverdue telegramUserId clock.utcnow) :=
    hw.db.updates_expireOverdue telegramUserId clock.utcnow
  -- an active session that has not run out is the one the callback finds
  have htarget : ∀ r ∈ w.db.rewardSessions, r.telegramUserId = telegramUserId → r.isActive →
      r.isOverdue clock.utcnow = false →
        (w.db.expireOverdue telegramUserId clock.utcnow).activeSession? telegramUserId =
          some r := by
    intro r hr huser hractive hoverdue
    have hmem : r ∈ (w.db.expireOverdue telegramUserId clock.utcnow).rewardSessions :=
      List.mem_map.2 ⟨r, hr, by simp [RewardSession.expireFor, hoverdue]⟩
    subst huser
    exact activeSession?_eq (hw.slot.of_updates hw.db hexpire) hmem hractive
  unfold markProviderConfirmed at hne ⊢
  dsimp only at hne ⊢
  cases hactive : (w.db.expireOverdue telegramUserId clock.utcnow).activeSession?
      telegramUserId with
  | none =>
      simp only [hactive] at hne ⊢
      refine ⟨_, _, none, Db.commitReward_eq_ok hne, rfl, ?_, fun sessionId r hr => ?_⟩
      · intro r hr huser hractive hoverdue
        rw [htarget r hr huser hractive hoverdue] at hactive
        cases hactive
      exact ⟨_, hfind sessionId r hr, expireFor_confirmedFor (hfit hr).1 (hfit hr).2⟩
  | some s =>
      simp only [hactive] at hne ⊢
      refine ⟨_, _, some s.id, Db.commitReward_eq_ok hne, rfl, ?_, fun sessionId r hr => ?_⟩
      · intro r hr huser hractive hoverdue
        rw [htarget r hr huser hractive hoverdue] at hactive
        cases hactive
        rfl
      obtain ⟨hmem, huser, hsactive⟩ := Db.mem_of_activeSession? hactive
      obtain rfl : r.id = sessionId := KeyedTable.key_of_find? hr
      by_cases hid : r.id = s.id
      · have hs : r.expireFor telegramUserId clock.utcnow = s :=
          KeyedTable.ext_key _ (KeyedTable.mem_of_find? (hfind _ r hr)) hmem (by simpa using hid)
        have hrs : r = s := by
          unfold RewardSession.expireFor at hs
          split at hs
          · simp [← hs, RewardSession.isActive, activeStatuses] at hsactive
          · exact hs
        subst hrs
        simp only [RewardSession.isActive, Bool.and_eq_true, decide_eq_true_eq,
          Option.isNone_iff_eq_none] at hsactive
        refine ⟨r.markProvider clock.utcnow, ?_,
          .inr (.inr ⟨rfl, huser, hsactive.1, hsactive.2, rfl⟩)⟩
        rw [Db.updateReward, KeyedTable.find?_modifyAt_self, hfind _ r hr, hs]
        rfl
      · refine ⟨r.expireFor telegramUserId clock.utcnow, ?_,
          expireFor_confirmedFor (hfit hr).1 (hfit hr).2⟩
        rw [Db.updateReward, KeyedTable.find?_modifyAt_of_ne _ _ _ hid]
        exact hfind _ r hr

/-- **One ad slot, one open request for a binding.** -/
theorem one_slot_for_each_user [UnicodeData] (parser : ArchiveParser) (settings : Settings)
    (archive : ArchiveTables) (events : List Event) :
    (∀ r ∈ ((initial settings archive).after parser events).db.rewardSessions,
      ∀ r' ∈ ((initial settings archive).after parser events).db.rewardSessions,
        r.status ∈ activeStatuses → r.unavailableAt = none →
        r'.status ∈ activeStatuses → r'.unavailableAt = none →
        r'.telegramUserId = r.telegramUserId → r' = r) ∧
    (∀ r ∈ ((initial settings archive).after parser events).db.rewardSessions,
      ∀ r' ∈ ((initial settings archive).after parser events).db.rewardSessions,
        r.status ≠ .expired → r.status ≠ .delivered → r'.status ≠ .expired →
        r'.status ≠ .delivered → r'.telegramUserId = r.telegramUserId → r'.movieId = r.movieId →
        r'.movieQualityId = r.movieQualityId → r'.quality = r.quality → r' = r) ∧
    (∀ event, (∀ telegramUserId movieId quality newId clock,
        event = .getOrCreate telegramUserId movieId quality newId clock →
          ((initial settings archive).after parser events).db.rewardSessions.find? newId = none) →
      ¬ ((initial settings archive).after parser events).RefusedByIndex event) ∧
    ∀ telegramUserId clock, ∃ db' view target,
      markProviderConfirmed ((initial settings archive).after parser events).db telegramUserId
        clock = .ok (db', view) ∧
      db'.deliveries = ((initial settings archive).after parser events).db.deliveries ∧
      (∀ r ∈ ((initial settings archive).after parser events).db.rewardSessions,
        r.telegramUserId = telegramUserId → r.isActive → r.isOverdue clock.utcnow = false →
          target = some r.id) ∧
      ∀ sessionId r, ((initial settings archive).after parser events).db.rewardSessions.find?
          sessionId = some r → ∃ r', db'.rewardSessions.find? sessionId = some r' ∧
        ConfirmedFor telegramUserId clock.utcnow target r r' := by
  have hw : ((initial settings archive).after parser events).Sound :=
    sound_after settings archive events
  refine ⟨?_, ?_, fun event hnew => hw.not_refusedByIndex hnew, hw.markProviderConfirmed_spec⟩
  · intro r hr r' hr' hstatus havailable hstatus' havailable' huser
    exact hw.slot.slot r hr r' hr' (by simp [RewardSession.isActive, hstatus, havailable])
      (by simp [RewardSession.isActive, hstatus', havailable']) huser
  · intro r hr r' hr' hexpired hdelivered hexpired' hdelivered' huser hmovie hrow hquality
    exact hw.slot.binding r hr r' hr' (by simp [RewardSession.isOpen, hexpired, hdelivered])
      (by simp [RewardSession.isOpen, hexpired', hdelivered']) ⟨huser, hmovie, hrow, hquality⟩

end Slots

end World
end CineGate
