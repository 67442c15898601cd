/-
**An earned film can always be delivered.**

Attempts crash between their two transactions, sends are refused and recovered, and several attempts
overlap.  Whatever has happened, a user whose reward is earned is never stuck: as long as the
archive still has the file, one recovery of stale sends and one undisturbed attempt deliver it.

* `World.serving` — the recovery and the attempt;
* `World.Sound.recoverStaleSends_earned`, `World.Sound.prepare_earned`,
  `World.Sound.complete_earned` — the three transactions on an earned reward;
* `World.earned_entitlement_can_be_delivered` — the attempt succeeds.
-/

import CineGate.DeliveryGuarantees
import CineGate.DeliveredFile

set_option relaxedAutoImplicit false
set_option autoImplicit false

namespace CineGate

/-- The caption of a session's delivery can be rendered. -/
def Db.Renders (db : Db) (render : CaptionRenderer) (reward : RewardSession) : Prop :=
  ∀ movie row, db.archive.movies.find? reward.movieId = some movie →
    db.archive.qualities.find? reward.movieQualityId = some row →
      (render (captionReplacements movie row
        (boundedDeleteSeconds db.settings.movieDeleteSeconds))).isSome

namespace RewardSession

variable {r : RewardSession}

theorem recoverSend_of_ne (h : r.status ≠ .delivering) : r.recoverSend = r := if_neg h

theorem releaseSend_isReady : r.releaseSend.isReady := by
  unfold releaseSend isReady
  split <;> simp

/-- What an earned session comes to when its send is released. -/
theorem recoverSend_earned (h : r.isRewarded) :
    r.recoverSend.isReady ∨ r.status = .delivered ∧ r.recoverSend = r := by
  rcases isRewarded_iff.1 h with hs | hs | hs | hs
  · rw [recoverSend_of_ne (by simp [hs])]
    exact .inl (isReady_iff.2 (.inl hs))
  · rw [recoverSend_of_ne (by simp [hs])]
    exact .inl (isReady_iff.2 (.inr hs))
  · rw [show r.recoverSend = r.releaseSend from if_pos hs]
    exact .inl releaseSend_isReady
  · exact .inr ⟨hs, recoverSend_of_ne (by simp [hs])⟩

/-- A release keeps what a session is bound to. -/
theorem recoverSend_binding (r : RewardSession) :
    r.recoverSend.movieId = r.movieId ∧ r.recoverSend.movieQualityId = r.movieQualityId ∧
      r.recoverSend.quality = r.quality := by
  have h : r.Continues r.recoverSend := continues_recoverSend
  exact ⟨h.movieId, h.movieQualityId, h.quality⟩

end RewardSession

/-- The reason against a binding depends on the binding alone. -/
theorem ArchiveTables.bindingReason_congr (t : ArchiveTables) {r r' : RewardSession}
    (hmovie : r'.movieId = r.movieId) (hrow : r'.movieQualityId = r.movieQualityId)
    (hquality : r'.quality = r.quality) : t.bindingReason r' = t.bindingReason r := by
  unfold bindingReason availabilityReason
  rw [hmovie, hrow, hquality]

/-- A binding without a reason against it has its movie and its file. -/
theorem ArchiveTables.exists_of_bindingReason {t : ArchiveTables} {r : RewardSession}
    (h : t.bindingReason r = none) :
    (∃ movie, t.movies.find? r.movieId = some movie) ∧
      ∃ row, t.qualities.find? r.movieQualityId = some row := by
  unfold bindingReason availabilityReason at h
  cases hmovie : t.movies.find? r.movieId with
  | none => simp [hmovie] at h
  | some movie =>
      cases hrow : t.qualities.find? r.movieQualityId with
      | none => simp [hmovie, hrow] at h
      | some row => exact ⟨⟨movie, rfl⟩, row, rfl⟩

namespace World

variable {w : World} {sessionId : ℕ} {r : RewardSession} {o : Option Delivery}

/-! ### The three transactions -/

/-- The delivery of a session whose send is under way is stale at a late clock. -/
theorem Sound.mem_staleSends (hw : w.Sound) (hent : w.db.entitlement? sessionId = some ⟨r, o⟩)
    (hr : r.status = .delivering) {staleSeconds : ℤ} {clock : Clock}
    (hstale : ∀ d, o = some d → ∀ startedAt, d.sendStartedAt = some startedAt →
      startedAt + seconds staleSeconds ≤ clock.utcnow) :
    sessionId ∈ (w.db.staleSends staleSeconds (fun _ => false) clock).map
      Delivery.rewardSessionId := by
  have hwell := hw.db.wellFormed sessionId _ hent
  obtain ⟨d, rfl, hsending⟩ : ∃ d, o = some d ∧ d.status = .sending := by
    simpa [RewardSession.DeliveryFits, hr] using hwell.delivery
  obtain ⟨hmem, hsession⟩ := Db.delivery_mem hent rfl
  obtain ⟨startedAt, hstarted⟩ : ∃ startedAt, d.sendStartedAt = some startedAt := by
    have hschedule := hwell.schedule d rfl
    rw [Delivery.OnSchedule, hsending] at hschedule
    exact Option.isSome_iff_exists.1 hschedule
  refine List.mem_map.2 ⟨d, List.mem_filter.2 ⟨hmem, ?_⟩, hsession⟩
  have hlate := hstale d rfl startedAt hstarted
  simp [Delivery.isStaleSend, hsending, hstarted, Int.le_sub_right_of_add_le hlate]

/-- **The recovery releases an earned session whose send is stale.** -/
theorem Sound.recoverStaleSends_earned (hw : w.Sound)
    (hent : w.db.entitlement? sessionId = some ⟨r, o⟩) {staleSeconds : ℤ} (hpos : 0 < staleSeconds)
    {clock : Clock}
    (hstale : ∀ d, o = some d → ∀ startedAt, d.sendStartedAt = some startedAt →
      startedAt + seconds staleSeconds ≤ clock.utcnow) :
    (∃ o', (w.recoverStaleSends staleSeconds (fun _ => false) clock).db.entitlement? sessionId =
        some ⟨r.recoverSend, o'⟩) ∧
      (w.recoverStaleSends staleSeconds (fun _ => false) clock).db.settings = w.db.settings ∧
      (w.recoverStaleSends staleSeconds (fun _ => false) clock).issued = w.issued := by
  have hne : CineGate.recoverStaleSends w.db staleSeconds (fun _ => false) clock ≠
      .error (.database .uniqueViolation) :=
    hw.not_refused (recoverStaleSends_commits hw.db.toLinked)
  have hid : r.id = sessionId := Db.reward_id hent
  have hreleased : (if r.id ∈ (w.db.staleSends staleSeconds (fun _ => false) clock).map
      Delivery.rewardSessionId then r.recoverSend else r) = r.recoverSend := by
    by_cases hr : r.status = .delivering
    · rw [if_pos (hid ▸ hw.mem_staleSends hent hr hstale)]
    · rw [RewardSession.recoverSend_of_ne hr, ite_self]
  unfold recoverStaleSends
  unfold CineGate.recoverStaleSends at hne ⊢
  simp only [not_le.2 hpos, if_false] at hne ⊢
  rw [Db.commitDelivery_eq_ok hne]
  refine ⟨⟨o.map fun d => if Delivery.isStaleSend (clock.utcnow - seconds staleSeconds)
    (fun _ => false) d then d.releaseSend recoveredStaleSendingState else d, ?_⟩, rfl, rfl⟩
  refine (Db.entitlement?_modifyRows fun d => ?_).trans ?_
  · split <;> rfl
  · rw [hent, Option.map_some]
    simp only [hreleased]

/-- **An attempt claims the send of an earned session** that waits for its delivery. -/
theorem Sound.prepare_earned (hw : w.Sound) (hent : w.db.entitlement? sessionId = some ⟨r, o⟩)
    (hready : r.isReady) (hbound : w.db.archive.bindingReason r = none) {render : CaptionRenderer}
    (hrender : w.db.Renders render r) (clock : Clock) :
    ∃ r' d prepared,
      (w.prepare sessionId render clock).db.entitlement? sessionId = some ⟨r', some d⟩ ∧
      d.status = .sending ∧ prepared.deliveryId = d.id ∧
      (w.prepare sessionId render clock).attempts.find? w.attempts.freshKey =
        some ⟨w.attempts.freshKey, sessionId, prepared, .copying, false⟩ ∧
      (w.prepare sessionId render clock).issued = w.issued := by
  have hreward : w.db.rewardSessions.find? sessionId = some r := (Db.entitlement?_eq_some.1 hent).1
  have hid : r.id = sessionId := Db.reward_id hent
  obtain ⟨⟨movie, hmovie⟩, row, hrow⟩ := ArchiveTables.exists_of_bindingReason hbound
  obtain ⟨caption, hcaption⟩ := Option.isSome_iff_exists.1 (hrender movie row hmovie hrow)
  have hne : CineGate.prepare w.db render sessionId clock ≠ .error (.database .uniqueViolation) :=
    hw.not_refused ((prepare_commits hw.db hw.uniqueKeys).mono fun _ _ h => h.1)
  have hclaim : CineGate.prepare w.db render sessionId clock = claimDelivery w.db r row caption
      (boundedDeleteSeconds w.db.settings.movieDeleteSeconds) clock.utcnow := by
    unfold CineGate.prepare
    rcases RewardSession.isReady_iff.1 hready with hs | hs <;>
      simp [hreward, hs, hbound, hmovie, hrow, hcaption]
  have hpending : (w.db.ensureDelivery r row).2.status = .pending :=
    hw.db.ensureDelivery_pending (hid.symm ▸ hreward) hready
  obtain ⟨db', prepared, hok⟩ :
      ∃ db' prepared, CineGate.prepare w.db render sessionId clock = .ok (db', .inl prepared) := by
    rw [hclaim] at hne ⊢
    unfold claimDelivery at hne ⊢
    simp only [hpending, reduceCtorEq, decide_false, Bool.or_self, Bool.false_eq_true,
      if_false] at hne ⊢
    exact ⟨_, _, Db.commitDelivery_eq_ok hne⟩
  obtain ⟨r₀, d, movie', row', hclaimed⟩ := prepare_claimed hw.db hw.uniqueKeys hok
  refine ⟨r₀.claimSend clock.utcnow, d.claimSend clock.utcnow, prepared, ?_⟩
  unfold prepare
  rw [hok]
  refine ⟨hclaimed.claimed, rfl, hclaimed.deliveryId, ?_, rfl⟩
  exact (KeyedTable.find?_insert w.attempts.find?_freshKey w.attempts.freshKey).trans (if_pos rfl)

/-- A copy that Telegram has made is recorded with the attempt. -/
theorem find?_copyMessage {a : SendAttempt} {messageId : ℕ} (ha : w.attempts.find? a.id = some a)
    (hphase : a.phase = .copying) (hfresh : messageId ∉ w.issued) :
    (w.copyMessage a.id (.copied messageId)).attempts.find? a.id =
      some { a with phase := .copied messageId } := by
  unfold copyMessage
  simp only [ha, hphase, ne_eq, not_true_eq_false, if_false, if_neg hfresh]
  simp [updateAttempt, ha]

/-- **The completion of a copy delivers the session.** -/
theorem Sound.complete_earned (hw : w.Sound) {a : SendAttempt} {messageId : ℕ} {d : Delivery}
    (ha : w.attempts.find? a.id = some a) (hphase : a.phase = .copied messageId)
    (hent : w.db.entitlement? a.sessionId = some ⟨r, some d⟩)
    (hid : a.prepared.deliveryId = d.id) (hsending : d.status = .sending) (clock : Clock) :
    (w.complete a.id clock).db.entitlement? a.sessionId =
      some ⟨r.finalizeSent clock.utcnow, some (d.finalizeSent messageId clock.utcnow
        (clock.utcnow + seconds a.prepared.deleteSeconds))⟩ := by
  have hreward := (Db.entitlement?_eq_some.1 hent).1
  have hdelivery := KeyedTable.find?_of_mem (Db.delivery_mem hent rfl).1
  have hearned : r.isRewarded := by
    have hfits := (hw.db.wellFormed _ _ hent).delivery
    exact RewardSession.isRewarded_iff.2
      (.inr (.inr (.inl ((RewardSession.deliveryFits_some.1 hfits).1.2 hsending))))
  have hne : CineGate.finalizeSent w.db a.sessionId d.id messageId a.prepared.deleteSeconds clock ≠
      .error (.database .uniqueViolation) :=
    hw.not_refused (finalizeSent_commits hw.db.toLinked hw.uniqueKeys hent hearned trivial)
  unfold complete
  unfold CineGate.finalizeSent at hne ⊢
  simp only [ha, hphase, hid, hreward, hdelivery, hsending, reduceCtorEq, if_false] at hne ⊢
  rw [Db.commitDelivery_eq_ok hne]
  exact Db.entitlement?_updateBoth hent fun _ => rfl

/-! ### Serving a reward -/

/-- A recovery of stale sends, and an attempt whose copy Telegram makes. -/
def serving (w : World) (sessionId : ℕ) (staleSeconds : ℤ) (render : CaptionRenderer)
    (messageId : ℕ) (clock : Clock) : List Event :=
  [.recoverStaleSends staleSeconds (fun _ => false) clock, .prepare sessionId render clock,
    .copyMessage w.attempts.freshKey (.copied messageId), .complete w.attempts.freshKey clock]

section Step

variable [UnicodeData] (parser : ArchiveParser)

/-- **An undisturbed attempt delivers a session that waits for its delivery.** -/
theorem Sound.attempt_delivers (hw : w.Sound) (hent : w.db.entitlement? sessionId = some ⟨r, o⟩)
    (hready : r.isReady) (hbound : w.db.archive.bindingReason r = none) {render : CaptionRenderer}
    (hrender : w.db.Renders render r) {messageId : ℕ} (hfresh : messageId ∉ w.issued)
    (clock : Clock) :
    ∃ r' d, (w.after parser [.prepare sessionId render clock,
        .copyMessage w.attempts.freshKey (.copied messageId),
        .complete w.attempts.freshKey clock]).db.entitlement? sessionId = some ⟨r', some d⟩ ∧
      r'.status = .delivered ∧ d.status = .sent ∧ d.telegramMessageId = some messageId := by
  obtain ⟨r₁, d, prepared, hent₁, hsending, hid, hattempt, hissued⟩ :=
    hw.prepare_earned hent hready hbound hrender clock
  have hw₁ : (w.prepare sessionId render clock).Sound :=
    show (World.step parser w (.prepare sessionId render clock)).Sound from hw.step _
  have hcopied := find?_copyMessage
    (a := ⟨w.attempts.freshKey, sessionId, prepared, .copying, false⟩) hattempt rfl
    (hissued ▸ hfresh)
  have hw₂ : ((w.prepare sessionId render clock).copyMessage w.attempts.freshKey
      (.copied messageId)).Sound :=
    show (World.step parser _ (.copyMessage w.attempts.freshKey (.copied messageId))).Sound from
      hw₁.step _
  have hent₂ : ((w.prepare sessionId render clock).copyMessage w.attempts.freshKey
      (.copied messageId)).db.entitlement? sessionId = some ⟨r₁, some d⟩ := by
    rw [copyMessage_db, hent₁]
  have hcompleted := hw₂.complete_earned
    (a := ⟨w.attempts.freshKey, sessionId, prepared, .copied messageId, false⟩) hcopied rfl hent₂
      hid
    hsending clock
  exact ⟨_, _, hcompleted, rfl, rfl, rfl⟩

/-- **An earned film can always be delivered.**  In every state that a run can reach, a session that
has been rewarded and whose file the archive still has is delivered by a recovery of stale sends and
one attempt whose copy succeeds, provided the clock is late enough for the send that may be under
way. -/
theorem earned_entitlement_can_be_delivered (settings : Settings) (archive : ArchiveTables)
    (events : List Event) {sessionId : ℕ} {r : RewardSession} {o : Option Delivery}
    (hent : ((initial settings archive).after parser events).db.entitlement? sessionId =
      some ⟨r, o⟩)
    (hearned : r.isRewarded)
    (hbound : ((initial settings archive).after parser events).db.archive.bindingReason r = none)
    {render : CaptionRenderer}
    (hrender : ((initial settings archive).after parser events).db.Renders render r)
    {messageId : ℕ} (hfresh : messageId ∉ ((initial settings archive).after parser events).issued)
    {staleSeconds : ℤ} (hpos : 0 < staleSeconds) {clock : Clock}
    (hstale : ∀ d, o = some d → ∀ startedAt, d.sendStartedAt = some startedAt →
      startedAt + seconds staleSeconds ≤ clock.utcnow) :
    ∃ r' d, (((initial settings archive).after parser events).after parser
        (((initial settings archive).after parser events).serving sessionId staleSeconds render
          messageId clock)).db.entitlement? sessionId = some ⟨r', some d⟩ ∧
      r'.status = .delivered ∧ d.isSent ∧
      (r.status ≠ .delivered → d.status = .sent ∧ d.telegramMessageId = some messageId) := by
  have hw : ((initial settings archive).after parser events).Sound :=
    sound_after settings archive events
  generalize (initial settings archive).after parser events = w at *
  rcases RewardSession.recoverSend_earned hearned with hready | ⟨hdelivered, -⟩
  · -- the session waits for its delivery once its send is released
    obtain ⟨⟨o₁, hent₁⟩, hsettings, hissued⟩ := hw.recoverStaleSends_earned hent hpos hstale
    have hw₁ : (w.recoverStaleSends staleSeconds (fun _ => false) clock).Sound :=
      show (World.step parser w (.recoverStaleSends staleSeconds (fun _ => false) clock)).Sound from
        hw.step _
    have hkey : (w.recoverStaleSends staleSeconds (fun _ => false) clock).attempts.freshKey =
        w.attempts.freshKey := by
      rw [hw.attempts_recoverStaleSends, KeyedTable.freshKey_modify]
    have harchive : (w.recoverStaleSends staleSeconds (fun _ => false) clock).db.archive =
        w.db.archive := archive_recoverStaleSends
    obtain ⟨hmovie, hrow, hquality⟩ := r.recoverSend_binding
    have hrender₁ : (w.recoverStaleSends staleSeconds (fun _ => false) clock).db.Renders render
        r.recoverSend := by
      unfold Db.Renders at hrender ⊢
      rwa [harchive, hsettings, hmovie, hrow]
    obtain ⟨r', d, hdelivers, hstatus, hsent, hmessage⟩ :=
      hw₁.attempt_delivers parser hent₁ hready
        (by rw [harchive, ArchiveTables.bindingReason_congr _ hmovie hrow hquality, hbound])
        hrender₁ (hissued ▸ hfresh) clock
    rw [hkey] at hdelivers
    exact ⟨r', d, hdelivers, hstatus, by simp [Delivery.isSent, hsent], fun _ => ⟨hsent, hmessage⟩⟩
  · -- the session is delivered and stays so
    obtain ⟨⟨r', o'⟩, hent', hcontinues⟩ : ∃ e', (w.after parser (w.serving sessionId staleSeconds
        render messageId clock)).db.entitlement? sessionId = some e' ∧
          Entitlement.Continues ⟨r, o⟩ e' :=
      hw.continues_after _ hent
    have hdelivered' : r'.status = .delivered := hcontinues.delivered hdelivered
    have hw' : (w.after parser (w.serving sessionId staleSeconds render messageId clock)).Sound :=
      Transition.run_invariant (fun _ event hw => hw.step event) hw _
    have hfits := (hw'.db.wellFormed _ _ hent').delivery
    simp only [RewardSession.DeliveryFits, hdelivered'] at hfits
    obtain ⟨d, rfl, hsent⟩ := hfits
    exact ⟨r', d, hent', hdelivered', hsent, fun hne => absurd hdelivered hne⟩

end Step

section Witness

attribute [local instance] UnicodeData.asciiArabic

/-- The first attempt of the rewarded user of `earning` crashed before its copy was recorded. -/
def crashing : List Event :=
  earning ++ [.prepare 40 (fun r => some ⟨r.movie, []⟩) (atSecond 30), .copyMessage 1 (.copied 900)]

/-- The session `crashing` ends with. -/
def crashedSession : RewardSession :=
  { earnedSession with status := .delivering, deliveryStartedAt := some (seconds 30) }

/-- The delivery `crashing` ends with. -/
def crashedDelivery : Delivery :=
  { sentDelivery with
    status := .sending, telegramMessageId := none, sendStartedAt := some (seconds 30),
    sentAt := none
    deleteAt := none, nextAttemptAt := none }

/-- The session of `crashing` is being delivered, by an attempt that never ends. -/
theorem earned_entitlement_can_be_delivered_crashed :
    ∃ r' d, (((initial {} oneFile).after {} crashing).after {}
        (((initial {} oneFile).after {} crashing).serving 40 300 (fun r => some ⟨r.movie, []⟩) 901
          (atSecond 330))).db.entitlement? 40 = some ⟨r', some d⟩ ∧
      r'.status = .delivered ∧ d.isSent ∧
      (crashedSession.status ≠ .delivered → d.status = .sent ∧ d.telegramMessageId = some 901) := by
  have hent : ((initial {} oneFile).after {} crashing).db.entitlement? 40 =
      some ⟨crashedSession, some crashedDelivery⟩ :=
    Db.entitlement?_eq_some.2 ⟨by decide +kernel, by decide +kernel⟩
  refine earned_entitlement_can_be_delivered {} {} oneFile crashing hent rfl (by decide +kernel)
    (fun movie row _ _ => rfl) (by decide +kernel) (by decide) fun d hd startedAt hstarted => ?_
  cases hd
  cases hstarted
  decide

end Witness

end World
end CineGate
