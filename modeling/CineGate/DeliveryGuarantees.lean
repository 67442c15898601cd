/-
**What the deliveries promise.**

* `World.reward_and_delivery_move_together` — the status of a delivery fits the one of its session;
* `World.sent_film_stays_on_schedule` — a film that was sent can be picked up for deletion until its
  deletion has been recorded.
-/

import CineGate.RewardGuarantees

set_option relaxedAutoImplicit false
set_option autoImplicit false

namespace CineGate

namespace World

/-! ### Rewards and deliveries -/

section Together

variable {w : World}

/-- The session of a delivery. -/
theorem Sound.entitlement_of_delivery (hw : w.Sound) {d : Delivery} (hd : d ∈ w.db.deliveries) :
    ∃ r, w.db.entitlement? d.rewardSessionId = some ⟨r, some d⟩ := by
  obtain ⟨r, hr⟩ := Option.isSome_iff_exists.1 (hw.db.owned d hd)
  exact ⟨r, Db.entitlement?_eq_some.2 ⟨hr, hw.db.deliveryOf?_eq hd⟩⟩

/-- **Reward and delivery rows move together.** -/
theorem reward_and_delivery_move_together [UnicodeData] (parser : ArchiveParser)
    (settings : Settings) (archive : ArchiveTables) (events : List Event) :
    (∀ d ∈ ((initial settings archive).after parser events).db.deliveries,
      ∀ d' ∈ ((initial settings archive).after parser events).db.deliveries,
        d'.rewardSessionId = d.rewardSessionId → d' = d) ∧
    (∀ d ∈ ((initial settings archive).after parser events).db.deliveries,
      ∃ r ∈ ((initial settings archive).after parser events).db.rewardSessions,
        r.id = d.rewardSessionId) ∧
    (∀ r ∈ ((initial settings archive).after parser events).db.rewardSessions,
      (r.status = .delivering ∨ r.status = .delivered →
        ∃ d ∈ ((initial settings archive).after parser events).db.deliveries,
          d.rewardSessionId = r.id) ∧
      ∀ d ∈ ((initial settings archive).after parser events).db.deliveries,
        d.rewardSessionId = r.id →
          (d.status = .sending ↔ r.status = .delivering) ∧
          (d.status ∈ [DeliveryStatus.sent, .deleting, .deleted, .deleteFailed] ↔
            r.status = .delivered) ∧
          (r.status ≠ .delivering → r.status ≠ .delivered → d.status = .pending)) ∧
    (∀ d ∈ ((initial settings archive).after parser events).db.deliveries, d.status = .sending →
      ∃ startedAt, d.sendStartedAt = some startedAt ∧
        ∀ staleSeconds locked clock, startedAt + seconds staleSeconds ≤ clock.utcnow →
          locked d.id = false →
          d ∈ ((initial settings archive).after parser events).db.staleSends staleSeconds locked
            clock) ∧
    ∀ r ∈ ((initial settings archive).after parser events).db.rewardSessions,
      r.status = .rewarded ∨ r.status = .unavailable → ∀ row,
        (((initial settings archive).after parser events).db.ensureDelivery r row).2.status =
          .pending := by
  have hw : ((initial settings archive).after parser events).Sound :=
    sound_after settings archive events
  generalize (initial settings archive).after parser events = w at *
  have hfit : ∀ {r}, r ∈ w.db.rewardSessions →
      w.db.entitlement? r.id = some ⟨r, w.db.deliveryOf? r.id⟩ := fun hr =>
    Db.entitlement?_eq_some.2 ⟨KeyedTable.find?_of_mem hr, rfl⟩
  refine ⟨?_, ?_, ?_, ?_, ?_⟩
  · intro d hd d' hd' hsession
    exact List.inj_on_of_nodup_map hw.db.unique hd' hd hsession
  · intro d hd
    obtain ⟨r, he⟩ := hw.entitlement_of_delivery hd
    have hr := (Db.entitlement?_eq_some.1 he).1
    exact ⟨r, KeyedTable.mem_of_find? hr, KeyedTable.key_of_find? hr⟩
  · intro r hr
    have hwf := hw.db.wellFormed _ _ (hfit hr)
    constructor
    · intro hstatus
      -- a session that is being delivered or delivered fits no missing delivery
      have hsome : ∃ d, w.db.deliveryOf? r.id = some d := by
        have hdelivery := hwf.delivery
        rcases hstatus with hstatus | hstatus <;>
          simp only [RewardSession.DeliveryFits, hstatus] at hdelivery
        · exact hdelivery.imp fun _ h => h.1
        · exact hdelivery.imp fun _ h => h.1
      obtain ⟨d, hd⟩ := hsome
      exact ⟨d, Db.deliveryOf?_mem hd⟩
    · intro d hd hsession
      have hdelivery := hwf.delivery
      rw [hw.db.deliveryOf?_eq_some.2 ⟨hd, hsession⟩] at hdelivery
      obtain ⟨hsending, hsent⟩ := RewardSession.deliveryFits_some.1 hdelivery
      have hisSent : d.isSent ↔ d.status ∈
          [DeliveryStatus.sent, .deleting, .deleted, .deleteFailed] := decide_eq_true_iff
      refine ⟨hsending.symm, hisSent.symm.trans hsent.symm, fun hdelivering hdelivered => ?_⟩
      -- of the six statuses `pending` alone is neither being sent nor sent
      have hnot : d.status ≠ .sending := mt hsending.2 hdelivering
      have hnot' : ¬ d.isSent := mt hsent.2 hdelivered
      rw [hisSent] at hnot'
      cases hs : d.status <;> simp_all
  · intro d hd hsending
    obtain ⟨r, he⟩ := hw.entitlement_of_delivery hd
    have hschedule := (hw.db.wellFormed _ _ he).schedule d rfl
    simp only [Delivery.OnSchedule, hsending] at hschedule
    obtain ⟨startedAt, hstarted⟩ := Option.isSome_iff_exists.1 hschedule
    refine ⟨startedAt, hstarted, fun staleSeconds locked clock hstale hlocked => ?_⟩
    refine List.mem_filter.2 ⟨hd, ?_⟩
    have hle : startedAt ≤ clock.utcnow - seconds staleSeconds :=
      Int.le_sub_right_of_add_le hstale
    simp [Delivery.isStaleSend, hsending, hstarted, hlocked, hle]
  · intro r hr hready row
    exact hw.db.ensureDelivery_pending (KeyedTable.find?_of_mem hr)
      (RewardSession.isReady_iff.2 hready)

end Together

/-! ### The deletion schedule -/

end World

/-- A film that was sent waits for its deletion, is being deleted, or has come to an end. -/
def Delivery.IsScheduled (delivery : Delivery) : Prop :=
  match delivery.status with
  | .sent => delivery.telegramMessageId.isSome ∧ delivery.sentAt.isSome ∧
      delivery.nextAttemptAt.isSome
  | .deleting => delivery.deleteStartedAt.isSome
  | .deleted | .deleteFailed => delivery.nextAttemptAt = none
  | .pending | .sending => False

namespace Delivery

variable {delivery : Delivery}

theorem isScheduled_of_isSent (h : delivery.OnSchedule) (hsent : delivery.isSent) :
    delivery.IsScheduled := by
  revert h hsent
  cases hs : delivery.status <;> simp +contextual [OnSchedule, IsScheduled, isSent, hs]

/-- Once it is due, `claim_due_deletions` selects a scheduled film that waits. -/
theorem IsScheduled.isDue (h : delivery.IsScheduled) (hs : delivery.status = .sent) :
    ∃ due, ∀ now locked, due ≤ now → locked delivery.id = false → delivery.isDue now locked := by
  simp only [IsScheduled, hs] at h
  obtain ⟨due, hdue⟩ := Option.isSome_iff_exists.1 h.2.2
  refine ⟨due, fun now locked hnow hlocked => ?_⟩
  simp [Delivery.isDue, hs, h.1, hdue, hnow, hlocked]

/-- Once it is stale, `recover_stale_deletions` puts a scheduled film back on the schedule. -/
theorem IsScheduled.recoverDeletion (h : delivery.IsScheduled) (hs : delivery.status = .deleting) :
    ∃ started, ∀ cutoff now, started ≤ cutoff →
      (delivery.recoverDeletion cutoff now).status = .sent ∧
        (delivery.recoverDeletion cutoff now).nextAttemptAt = some now := by
  simp only [IsScheduled, hs] at h
  obtain ⟨started, hstarted⟩ := Option.isSome_iff_exists.1 h
  refine ⟨started, fun cutoff now hcutoff => ?_⟩
  simp [Delivery.recoverDeletion, hs, hstarted, hcutoff]

end Delivery

namespace World

section Schedule

variable {w : World}

/-- A worker's report for a delivery that is not being deleted changes nothing. -/
theorem Sound.report_unchanged (hw : w.Sound) {d : Delivery} (hd : d ∈ w.db.deliveries)
    (hnot : d.status ≠ .deleting) {g : Delivery → Delivery}
    {hg : ∀ d : Delivery, (d.whenDeleting g).id = d.id} :
    (w.db.updateDelivery d.id (Delivery.whenDeleting g) hg).commitDelivery () =
      .ok (w.db, ()) := by
  have hsame : w.db.deliveries.modifyAt d.id (Delivery.whenDeleting g) hg = w.db.deliveries := by
    refine KeyedTable.modifyAt_eq_self fun d' hd' hid => ?_
    rw [w.db.deliveries.ext_key hd' hd hid]
    exact if_neg hnot
  rw [Db.updateDelivery, hsame, Db.commitDelivery, if_pos hw.uniqueKeys]

variable [UnicodeData] (parser : ArchiveParser) (settings : Settings) (archive : ArchiveTables)

/-- **Every sent film stays on the deletion schedule.** -/
theorem sent_film_stays_on_schedule (before later : List Event) {deliveryId : ℕ} {d₀ : Delivery}
    (h₀ : ((initial settings archive).after parser before).db.deliveries.find? deliveryId =
      some d₀) (hsent : d₀.status = .sent) :
    ∃ d, ((initial settings archive).after parser (before ++ later)).db.deliveries.find?
        deliveryId = some d ∧ d.IsScheduled ∧
      (d.status = .sent → ∃ due, ∀ now locked, due ≤ now → locked d.id = false →
        d.isDue now locked) ∧
      (d.status = .deleting → ∃ started, ∀ cutoff now, started ≤ cutoff →
        (d.recoverDeletion cutoff now).status = .sent ∧
          (d.recoverDeletion cutoff now).nextAttemptAt = some now) ∧
      (d.status ≠ .deleting → ∀ clock error,
        markDeleted ((initial settings archive).after parser (before ++ later)).db deliveryId
          clock = .ok (((initial settings archive).after parser (before ++ later)).db, ()) ∧
        markDeleteFailed ((initial settings archive).after parser (before ++ later)).db deliveryId
          error = .ok (((initial settings archive).after parser (before ++ later)).db, ()) ∧
        rescheduleDelete ((initial settings archive).after parser (before ++ later)).db deliveryId
          error clock =
            .ok (((initial settings archive).after parser (before ++ later)).db, ())) := by
  have hw₀ : ((initial settings archive).after parser before).Sound :=
    sound_after settings archive before
  have hw : ((initial settings archive).after parser (before ++ later)).Sound :=
    sound_after settings archive (before ++ later)
  obtain ⟨r, he⟩ := hw₀.entitlement_of_delivery (KeyedTable.mem_of_find? h₀)
  have hdelivered : r.status = .delivered :=
    (RewardSession.deliveryFits_some.1 (hw₀.db.wellFormed _ _ he).delivery).2.2
      (by simp [Delivery.isSent, hsent])
  obtain ⟨⟨r', d'⟩, he', hcontinues⟩ : ∃ e', ((initial settings archive).after parser
      (before ++ later)).db.entitlement? d₀.rewardSessionId = some e' ∧ _ := by
    rw [after, Transition.run_append]
    exact hw₀.continues_after later he
  obtain ⟨d, rfl, hid⟩ := hcontinues.deliveryId d₀ rfl
  generalize (initial settings archive).after parser (before ++ later) = w at *
  obtain rfl : d₀.id = deliveryId := KeyedTable.key_of_find? h₀
  have hwf := hw.db.wellFormed _ _ he'
  have hd : d ∈ w.db.deliveries := (Db.delivery_mem he' rfl).1
  -- a delivered session stays delivered, so its row stays sent
  have hisSent : d.isSent :=
    (RewardSession.deliveryFits_some.1 hwf.delivery).2.1 (hcontinues.delivered hdelivered)
  have hscheduled := Delivery.isScheduled_of_isSent (hwf.schedule d rfl) hisSent
  refine ⟨d, hid ▸ KeyedTable.find?_of_mem hd, hscheduled, hscheduled.isDue,
    hscheduled.recoverDeletion, fun hnot clock error => ?_⟩
  rw [← hid]
  exact ⟨hw.report_unchanged hd hnot, hw.report_unchanged hd hnot, hw.report_unchanged hd hnot⟩

end Schedule

section Witness

attribute [local instance] UnicodeData.asciiArabic

/-- The rewarded user of `earning` receives the film as message 900. -/
def receiving : List Event :=
  earning ++ [.prepare 40 (fun r => some ⟨r.movie, []⟩) (atSecond 30),
    .copyMessage 1 (.copied 900), .complete 1 (atSecond 31)]

/-- The delivery `receiving` ends with. -/
def sentDelivery : Delivery where
  id := 1
  rewardSessionId := 40
  telegramUserId := 5
  movieQualityId := 1
  status := .sent
  telegramMessageId := some 900
  sendStartedAt := none
  sentAt := some (seconds 31)
  deleteAt := some (seconds 151)
  nextAttemptAt := some (seconds 151)
  deleteStartedAt := none
  deletedAt := none
  attempts := 0
  lastError := none

theorem sent_film_stays_on_schedule_claimed :
    ∃ d, ((initial {} oneFile).after {} (receiving ++
        [.claimDueDeletions 50 (fun _ => false) (atSecond 200)])).db.deliveries.find? 1 = some d ∧
      d.IsScheduled := by
  have h : ((initial {} oneFile).after {} receiving).db.deliveries.find? 1 = some sentDelivery := by
    decide +kernel
  obtain ⟨d, hd, hscheduled, -⟩ := sent_film_stays_on_schedule {} {} oneFile receiving
    [.claimDueDeletions 50 (fun _ => false) (atSecond 200)] h rfl
  exact ⟨d, hd, hscheduled⟩

end Witness

end World
end CineGate
