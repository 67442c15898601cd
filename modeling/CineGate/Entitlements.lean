/-
**One reward session and its delivery, as the transactions move them.**

Seven transactions of two services write the status of a reward session, and eight write the one of
its delivery.  Seen from a single session each of them is one or a few of the moves below, and the
invariants of the session are consequences of the list of moves alone.

Main definitions:

* `Entitlement` — a session with its delivery;
* `SessionStep` — the moves;
* `Entitlement.WellFormed` — the proofs, the availability and the delivery fit the status;
* `Entitlement.Continues` — what never changes, and what once reached is never left.

Main results:

* `SessionStep.wellFormed` — a move keeps a well-formed entitlement well formed;
* `SessionStep.continues` — a move from a well-formed entitlement continues it;
* `SessionStep.copied_of_delivered` — a move to `delivered` follows a copy.
-/

import CineGate.Delivery
import Mathlib.Logic.Relation

set_option relaxedAutoImplicit false
set_option autoImplicit false

namespace CineGate

/-! ### Statuses -/

/-- The statuses of a session that has earned its reward. -/
def rewardedStatuses : List RewardStatus := [.rewarded, .unavailable, .delivering, .delivered]

/-- The session has earned its reward. -/
def RewardSession.isRewarded (reward : RewardSession) : Bool := reward.status ∈ rewardedStatuses

/-- Both proofs have been recorded. -/
def RewardSession.isProven (reward : RewardSession) : Bool :=
  reward.clientCompletedAt.isSome && reward.providerConfirmedAt.isSome

/-- A delivery can be claimed by a rewarded session or by a retained one. -/
def RewardSession.isReady (reward : RewardSession) : Bool :=
  reward.status = .rewarded || reward.status = .unavailable

/-- The copy of a delivery has been sent. -/
def Delivery.isSent (delivery : Delivery) : Bool :=
  delivery.status ∈ [DeliveryStatus.sent, .deleting, .deleted, .deleteFailed]

/-! ### Moves -/

/-- A reward session with its delivery. -/
structure Entitlement where
  reward : RewardSession
  delivery : Option Delivery

/-- The moves of one session.  `copied` tells which messages a finalized send may name. -/
inductive SessionStep (copied : ℕ → Prop) : Option Entitlement → Option Entitlement → Prop
  | created (id : ℕ) (telegramUserId : ℤ) (movieId : ℕ) (row : MovieQuality) (clock : Clock)
      (ttl : ℤ) : SessionStep copied none
        (some ⟨newRewardSession id telegramUserId movieId row clock ttl, none⟩)
  | prompt (r : RewardSession) (d : Option Delivery) (messageId : Option ℕ)
      (claimedAt : Option Instant) : SessionStep copied (some ⟨r, d⟩)
        (some ⟨{ r with promptMessageId := messageId, promptClaimedAt := claimedAt }, d⟩)
  | expire (r : RewardSession) (d : Option Delivery) (now : Instant) (hr : r.isOverdue now) :
      SessionStep copied (some ⟨r, d⟩) (some ⟨{ r with status := .expired }, d⟩)
  | clientCompleted (r : RewardSession) (d : Option Delivery) (now : Instant)
      (hr : r.status ≠ .expired) : SessionStep copied (some ⟨r, d⟩) (some ⟨r.markClient now, d⟩)
  | providerConfirmed (r : RewardSession) (d : Option Delivery) (now : Instant)
      (hr : r.isActive) : SessionStep copied (some ⟨r, d⟩) (some ⟨r.markProvider now, d⟩)
  | preserve (r : RewardSession) (d : Option Delivery) (reason : UnavailableReason) (now : Instant)
      (hr : r.isReady) :
      SessionStep copied (some ⟨r, d⟩) (some ⟨r.preserveUnavailable reason now, d⟩)
  | deliveryAdded (r : RewardSession) (id : ℕ) (row : MovieQuality) (hr : r.isReady) :
      SessionStep copied (some ⟨r, none⟩) (some ⟨r, some (newDelivery id r row)⟩)
  | claimSend (r : RewardSession) (d : Delivery) (now : Instant) (hr : r.isReady)
      (hsent : d.status ≠ .sent) (hdeleted : d.status ≠ .deleted) (hsending : d.status ≠ .sending) :
      SessionStep copied (some ⟨r, some d⟩) (some ⟨r.claimSend now, some (d.claimSend now)⟩)
  | repairDelivered (r : RewardSession) (d : Delivery) (now : Instant) (hr : r.isReady)
      (hd : d.status = .sent ∨ d.status = .deleted) :
      SessionStep copied (some ⟨r, some d⟩) (some ⟨r.repairDelivered d now, some d⟩)
  | repairDelivering (r : RewardSession) (d : Delivery) (hr : r.isReady)
      (hd : d.status = .sending) :
      SessionStep copied (some ⟨r, some d⟩) (some ⟨r.repairDelivering, some d⟩)
  | resetFailedSend (r : RewardSession) (d : Delivery) (reason : Option UnavailableReason)
      (error : Str) (now : Instant) (hr : r.isRewarded) :
      SessionStep copied (some ⟨r, some d⟩)
        (some ⟨r.resetFailedSend reason now, some (d.resetFailedSend error)⟩)
  | finalizeSent (r : RewardSession) (d : Delivery) (messageId : ℕ) (now deleteAt : Instant)
      (hr : r.isRewarded) (hd : d.status ≠ .sent) (hm : copied messageId) :
      SessionStep copied (some ⟨r, some d⟩)
        (some ⟨r.finalizeSent now, some (d.finalizeSent messageId now deleteAt)⟩)
  | recoverSend (r : RewardSession) (d : Delivery) (error : Str) (hd : d.status = .sending) :
      SessionStep copied (some ⟨r, some d⟩) (some ⟨r.recoverSend, some (d.releaseSend error)⟩)
  | claimDeletion (r : RewardSession) (d : Delivery) (now : Instant) (hd : d.status = .sent) :
      SessionStep copied (some ⟨r, some d⟩) (some ⟨r, some (d.claimDeletion now)⟩)
  | markDeleted (r : RewardSession) (d : Delivery) (now : Instant) (hd : d.status = .deleting) :
      SessionStep copied (some ⟨r, some d⟩) (some ⟨r, some (d.markDeleted now)⟩)
  | markDeleteFailed (r : RewardSession) (d : Delivery) (error : Str) (hd : d.status = .deleting) :
      SessionStep copied (some ⟨r, some d⟩) (some ⟨r, some (d.markDeleteFailed error)⟩)
  | reschedule (r : RewardSession) (d : Delivery) (error : Str) (now : Instant)
      (hd : d.status = .deleting) :
      SessionStep copied (some ⟨r, some d⟩) (some ⟨r, some (d.reschedule error now)⟩)
  | recoverDeletion (r : RewardSession) (d : Delivery) (cutoff now : Instant) :
      SessionStep copied (some ⟨r, some d⟩) (some ⟨r, some (d.recoverDeletion cutoff now)⟩)

/-- Some moves, one after the other. -/
abbrev SessionSteps (copied : ℕ → Prop) : Option Entitlement → Option Entitlement → Prop :=
  Relation.ReflTransGen (SessionStep copied)

/-! ### Well-formed entitlements -/

/-- The status of an unexpired session is determined by its proofs, and an expired session lacks
one of them. -/
def RewardSession.ProofsFit (reward : RewardSession) : Prop :=
  match reward.status with
  | .pending => reward.clientCompletedAt = none ∧ reward.providerConfirmedAt = none
  | .clientCompleted => reward.clientCompletedAt.isSome ∧ reward.providerConfirmedAt = none
  | .providerConfirmed => reward.clientCompletedAt = none ∧ reward.providerConfirmedAt.isSome
  | .rewarded | .unavailable | .delivering | .delivered => reward.isProven
  | .expired => ¬ reward.isProven

/-- A session that has been unavailable is retained, sent or being sent. -/
def RewardSession.AvailabilityFits (reward : RewardSession) : Prop :=
  match reward.status with
  | .unavailable => reward.unavailableAt.isSome
  | .delivering | .delivered => True
  | _ => reward.unavailableAt = none

/-- The timestamps of a delivery that the claim and recovery queries select on. -/
def Delivery.OnSchedule (delivery : Delivery) : Prop :=
  match delivery.status with
  | .pending => True
  | .sending => delivery.sendStartedAt.isSome
  | .sent => delivery.telegramMessageId.isSome ∧ delivery.sentAt.isSome ∧
      delivery.nextAttemptAt.isSome
  | .deleting => delivery.telegramMessageId.isSome ∧ delivery.sentAt.isSome ∧
      delivery.deleteStartedAt.isSome
  | .deleted | .deleteFailed => delivery.nextAttemptAt = none

/-- The delivery of a session in a given status. -/
def RewardSession.DeliveryFits (reward : RewardSession) (delivery : Option Delivery) : Prop :=
  match reward.status with
  | .delivering => ∃ d, delivery = some d ∧ d.status = .sending
  | .delivered => ∃ d, delivery = some d ∧ d.isSent
  | _ => ∀ d, delivery = some d → d.status = .pending

/-- What never changes in a session, and what once reached is never left. -/
structure RewardSession.Continues (r r' : RewardSession) : Prop where
  telegramUserId : r'.telegramUserId = r.telegramUserId
  movieId : r'.movieId = r.movieId
  movieQualityId : r'.movieQualityId = r.movieQualityId
  quality : r'.quality = r.quality
  expiresAt : r'.expiresAt = r.expiresAt
  clientCompletedAt : r.clientCompletedAt.isSome → r'.clientCompletedAt = r.clientCompletedAt
  providerConfirmedAt : r.providerConfirmedAt.isSome →
    r'.providerConfirmedAt = r.providerConfirmedAt
  unavailableAt : r.unavailableAt.isSome → r'.unavailableAt = r.unavailableAt
  rewarded : r.isRewarded → r'.isRewarded
  delivered : r.status = .delivered → r'.status = .delivered
  expired : r.status = .expired → r'.status = .expired
  inactive : r.isActive = false → r'.isActive = false

/-- A well-formed session with a well-formed delivery that fits it. -/
structure Entitlement.WellFormed (e : Entitlement) : Prop where
  proofs : e.reward.ProofsFit
  availability : e.reward.AvailabilityFits
  delivery : e.reward.DeliveryFits e.delivery
  schedule : ∀ d, e.delivery = some d → d.OnSchedule

/-- The session continues and keeps its delivery. -/
structure Entitlement.Continues (e e' : Entitlement) : Prop
    extends RewardSession.Continues e.reward e'.reward where
  deliveryId : ∀ d, e.delivery = some d → ∃ d', e'.delivery = some d' ∧ d'.id = d.id

/-! ### Recomputing the status -/

namespace RewardSession

variable {r : RewardSession} {d : Option Delivery} {now : Instant}

theorem proofsFit_refreshStatus
    (h : r.status = .unavailable ∨ r.status = .delivering ∨ r.status = .delivered → r.isProven) :
    (r.refreshStatus now).ProofsFit := by
  unfold refreshStatus
  split
  · next hs =>
      have hp : r.isProven := h (by simpa using hs)
      rcases (by simpa using hs : r.status = .unavailable ∨ r.status = .delivering ∨
        r.status = .delivered) with hs | hs | hs <;> simpa only [ProofsFit, hs] using hp
  · split <;> simp_all [ProofsFit, isProven]

theorem availabilityFits_refreshStatus (h : r.AvailabilityFits) :
    (r.refreshStatus now).AvailabilityFits := by
  unfold refreshStatus
  split
  · exact h
  · next hs =>
      have hnone : r.unavailableAt = none := by
        revert h
        cases hr : r.status <;> simp_all [AvailabilityFits]
      split <;> simpa [AvailabilityFits] using hnone

theorem deliveryFits_refreshStatus (h : r.DeliveryFits d) :
    (r.refreshStatus now).DeliveryFits d := by
  unfold refreshStatus
  split
  · exact h
  · next hs =>
      have hpending : ∀ e, d = some e → e.status = .pending := by
        revert h
        cases hr : r.status <;> simp_all [DeliveryFits]
      split <;> simpa [DeliveryFits] using hpending

/-- Recording a proof keeps the other columns and the proof that is already there. -/
theorem refreshStatus_of_isProven (h : r.isProven) :
    (r.refreshStatus now).isRewarded := by
  unfold refreshStatus
  split
  · next hs => simp only [isRewarded, rewardedStatuses]; simp_all
  · split <;> simp_all [isProven, isRewarded, rewardedStatuses]

/-- The two rows move together. -/
theorem deliveryFits_some {e : Delivery} : r.DeliveryFits (some e) ↔
    (r.status = .delivering ↔ e.status = .sending) ∧ (r.status = .delivered ↔ e.isSent) := by
  cases hr : r.status <;> cases he : e.status <;>
    simp [DeliveryFits, Delivery.isSent, hr, he]

theorem isReady_iff : r.isReady ↔ r.status = .rewarded ∨ r.status = .unavailable := by
  simp [isReady]

theorem isRewarded_iff : r.isRewarded ↔
    r.status = .rewarded ∨ r.status = .unavailable ∨ r.status = .delivering ∨
      r.status = .delivered := by
  simp [isRewarded, rewardedStatuses]

/-- A rewarded session has both proofs, and no other session has them. -/
theorem ProofsFit.isProven_iff (h : r.ProofsFit) : r.isProven ↔ r.isRewarded := by
  revert h
  cases hr : r.status <;> simp +contextual [ProofsFit, isRewarded, rewardedStatuses, isProven, hr]

/-- The status of an unexpired session, read off its proofs. -/
theorem ProofsFit.status_iff (h : r.ProofsFit) (hexpired : r.status ≠ .expired) :
    (r.status = .pending ↔ r.clientCompletedAt = none ∧ r.providerConfirmedAt = none) ∧
      (r.status = .clientCompleted ↔
        r.clientCompletedAt.isSome ∧ r.providerConfirmedAt = none) ∧
      (r.status = .providerConfirmed ↔
        r.clientCompletedAt = none ∧ r.providerConfirmedAt.isSome) ∧
      (r.status ∈ rewardedStatuses ↔
        r.clientCompletedAt.isSome ∧ r.providerConfirmedAt.isSome) := by
  revert h hexpired
  cases hs : r.status <;> cases hc : r.clientCompletedAt <;> cases hp : r.providerConfirmedAt <;>
    simp [ProofsFit, isProven, rewardedStatuses, hs, hc, hp]

/-- A session whose send did not happen waits for its delivery again. -/
theorem deliveryFits_releaseSend {e : Delivery} (h : e.status = .pending) :
    r.releaseSend.DeliveryFits (some e) := by
  have hpending : ∀ d, some e = some d → d.status = .pending := by
    rintro d ⟨⟩
    exact h
  unfold releaseSend
  split <;> exact hpending

theorem proofsFit_releaseSend (h : r.isProven) : r.releaseSend.ProofsFit := by
  unfold releaseSend
  split <;> simpa [ProofsFit, isProven] using h

theorem availabilityFits_releaseSend : r.releaseSend.AvailabilityFits := by
  unfold releaseSend
  split
  · next h => exact h
  · next h => simpa [AvailabilityFits] using h

theorem availabilityFits_preserveUnavailable {reason : UnavailableReason} :
    (r.preserveUnavailable reason now).AvailabilityFits := by
  cases hu : r.unavailableAt <;> simp [AvailabilityFits, preserveUnavailable, hu]

theorem isRewarded_of_isReady (h : r.isReady) : r.isRewarded :=
  isRewarded_iff.2 ((isReady_iff.1 h).imp_right Or.inl)

/-- The delivery of a session that is ready for it is pending. -/
theorem status_of_isReady {e : Delivery} (h : r.DeliveryFits (some e)) (hr : r.isReady) :
    e.status = .pending := by
  rcases isReady_iff.1 hr with hr | hr <;> simpa [DeliveryFits, hr] using h

theorem resetFailedSend_none (h : r.status = .delivering) :
    r.resetFailedSend none now = r.releaseSend := by
  simp [resetFailedSend, h]

theorem resetFailedSend_some {reason : UnavailableReason} (h : r.status = .delivering) :
    r.resetFailedSend (some reason) now = r.preserveUnavailable reason now := by
  simp [resetFailedSend, h]

end RewardSession

/-! ### A move keeps an entitlement well formed -/

namespace Entitlement.WellFormed

variable {r r' : RewardSession} {o : Option Delivery} {d d' : Delivery}

theorem isProven (h : WellFormed ⟨r, o⟩) (hr : r.isRewarded) : r.isProven :=
  h.proofs.isProven_iff.2 hr

/-- Recording a proof and recomputing the status. -/
theorem recordProof {now : Instant} (h : WellFormed ⟨r, o⟩) (hstatus : r'.status = r.status)
    (hunavailable : r'.unavailableAt = r.unavailableAt) (hproven : r.isProven → r'.isProven) :
    WellFormed ⟨r'.refreshStatus now, o⟩ := by
  obtain ⟨hp, ha, hd, hs⟩ := h
  refine ⟨RewardSession.proofsFit_refreshStatus ?_, RewardSession.availabilityFits_refreshStatus ?_,
    RewardSession.deliveryFits_refreshStatus ?_, hs⟩
  · intro hkept
    rw [hstatus] at hkept
    exact hproven (hp.isProven_iff.2 (RewardSession.isRewarded_iff.2 (Or.inr hkept)))
  · simpa only [RewardSession.AvailabilityFits, hstatus, hunavailable] using ha
  · simpa only [RewardSession.DeliveryFits, hstatus] using hd

/-- A send that did not happen puts both rows back. -/
theorem releaseSend {error : Str} (h : WellFormed ⟨r, some d⟩) (hr : r.status = .delivering) :
    WellFormed ⟨r.releaseSend, some (d.releaseSend error)⟩ := by
  have hproven := h.isProven (RewardSession.isRewarded_iff.2 (by simp [hr]))
  refine ⟨RewardSession.proofsFit_releaseSend hproven, RewardSession.availabilityFits_releaseSend,
    RewardSession.deliveryFits_releaseSend rfl, ?_⟩
  rintro e ⟨⟩
  trivial

/-- The delivery of a delivered session moves on as long as it stays a sent one. -/
theorem moveSent (h : WellFormed ⟨r, some d⟩) (hd : d.isSent) (hd' : d'.isSent)
    (hs : d'.OnSchedule) : WellFormed ⟨r, some d'⟩ := by
  have hstatus : r.status = .delivered := (RewardSession.deliveryFits_some.1 h.delivery).2.2 hd
  refine ⟨h.proofs, h.availability, ?_, ?_⟩
  · simpa [RewardSession.DeliveryFits, hstatus] using hd'
  · rintro e ⟨⟩
    exact hs

/-- A copy that is there has its message and the moment it was sent. -/
theorem sent_columns (h : WellFormed ⟨r, some d⟩) (hd : d.status = .sent ∨ d.status = .deleting) :
    d.telegramMessageId.isSome ∧ d.sentAt.isSome := by
  have hschedule := h.schedule d rfl
  rcases hd with hd | hd <;> simp only [Delivery.OnSchedule, hd] at hschedule <;>
    exact ⟨hschedule.1, hschedule.2.1⟩

/-- An expirable session lacks a proof, which is all that an expired one has to show. -/
theorem expire {now : Instant} (h : WellFormed ⟨r, o⟩) (hr : r.isOverdue now) :
    WellFormed ⟨{ r with status := .expired }, o⟩ := by
  obtain ⟨hp, ha, hd, hs⟩ := h
  have hstatus : r.status = .pending ∨ r.status = .clientCompleted ∨
      r.status = .providerConfirmed := by
    have hr := (Bool.and_eq_true_iff.1 hr).1
    simpa [expirableStatuses] using hr
  have hproven : ¬ r.isProven := by
    rw [hp.isProven_iff, RewardSession.isRewarded_iff]
    rcases hstatus with hstatus | hstatus | hstatus <;> simp [hstatus]
  refine ⟨hproven, ?_, ?_, hs⟩ <;> rcases hstatus with hstatus | hstatus | hstatus <;>
    simp_all [RewardSession.AvailabilityFits, RewardSession.DeliveryFits]

/-- A ready session is retained for later. -/
theorem preserve {reason : UnavailableReason} {now : Instant} (h : WellFormed ⟨r, o⟩)
    (hr : r.isReady) : WellFormed ⟨r.preserveUnavailable reason now, o⟩ := by
  have hpending : ∀ e, o = some e → e.status = .pending := by
    have hd := h.delivery
    rcases RewardSession.isReady_iff.1 hr with hr | hr <;>
      simpa [RewardSession.DeliveryFits, hr] using hd
  exact ⟨h.isProven (RewardSession.isRewarded_of_isReady hr),
    RewardSession.availabilityFits_preserveUnavailable, hpending, h.schedule⟩

theorem deliveryAdded {id : ℕ} {row : MovieQuality} (h : WellFormed ⟨r, none⟩) (hr : r.isReady) :
    WellFormed ⟨r, some (newDelivery id r row)⟩ := by
  refine ⟨h.proofs, h.availability, ?_, ?_⟩
  · rcases RewardSession.isReady_iff.1 hr with hr | hr <;>
      simp [RewardSession.DeliveryFits, hr, newDelivery]
  · rintro d ⟨⟩
    trivial

theorem claimSend {now : Instant} (h : WellFormed ⟨r, some d⟩) (hr : r.isReady) :
    WellFormed ⟨r.claimSend now, some (d.claimSend now)⟩ := by
  have hproven : r.isProven := h.isProven (RewardSession.isRewarded_of_isReady hr)
  refine ⟨hproven, trivial, ⟨_, rfl, rfl⟩, ?_⟩
  rintro d ⟨⟩
  rfl

/-- The pair moves together: a session that is not delivering has no delivery being sent. -/
theorem resetFailedSend {reason : Option UnavailableReason} {error : Str} {now : Instant}
    (h : WellFormed ⟨r, some d⟩) (hr : r.isRewarded) :
    WellFormed ⟨r.resetFailedSend reason now, some (d.resetFailedSend error)⟩ := by
  have htogether := (RewardSession.deliveryFits_some.1 h.delivery).1
  by_cases hdelivering : r.status = .delivering
  · have hd' : d.resetFailedSend error = d.releaseSend (boundedError error) :=
      if_pos (htogether.1 hdelivering)
    rw [hd']
    cases reason with
    | none =>
        rw [RewardSession.resetFailedSend_none hdelivering]
        exact h.releaseSend hdelivering
    | some reason =>
        rw [RewardSession.resetFailedSend_some hdelivering]
        refine ⟨h.isProven hr, RewardSession.availabilityFits_preserveUnavailable, ?_,
          (h.releaseSend hdelivering).schedule⟩
        rintro e ⟨⟩
        rfl
  · have hsending : d.status ≠ .sending := fun h => hdelivering (htogether.2 h)
    have hr' : r.resetFailedSend reason now = r := if_neg hdelivering
    have hd' : d.resetFailedSend error = d := if_neg hsending
    rw [hr', hd']
    exact h

theorem finalizeSent {messageId : ℕ} {now deleteAt : Instant} (h : WellFormed ⟨r, some d⟩)
    (hr : r.isRewarded) :
    WellFormed ⟨r.finalizeSent now, some (d.finalizeSent messageId now deleteAt)⟩ := by
  have hproven : r.isProven := h.isProven hr
  refine ⟨hproven, trivial, ⟨_, rfl, rfl⟩, ?_⟩
  rintro d ⟨⟩
  exact ⟨rfl, rfl, rfl⟩

theorem recoverSend {error : Str} (h : WellFormed ⟨r, some d⟩) (hd : d.status = .sending) :
    WellFormed ⟨r.recoverSend, some (d.releaseSend error)⟩ := by
  have hdelivering : r.status = .delivering :=
    (RewardSession.deliveryFits_some.1 h.delivery).1.2 hd
  have hr' : r.recoverSend = r.releaseSend := if_pos hdelivering
  rw [hr']
  exact h.releaseSend hdelivering

theorem claimDeletion {now : Instant} (h : WellFormed ⟨r, some d⟩) (hsent : d.status = .sent) :
    WellFormed ⟨r, some (d.claimDeletion now)⟩ := by
  obtain ⟨hmessage, hsentAt⟩ := h.sent_columns (.inl hsent)
  have hd : d.isSent := by simp [Delivery.isSent, hsent]
  unfold Delivery.claimDeletion
  split
  · -- too old to be deleted: the copy stays where it is
    exact h.moveSent hd rfl rfl
  · exact h.moveSent hd rfl ⟨hmessage, hsentAt, rfl⟩

theorem reschedule {error : Str} {now : Instant} (h : WellFormed ⟨r, some d⟩)
    (hdeleting : d.status = .deleting) : WellFormed ⟨r, some (d.reschedule error now)⟩ := by
  obtain ⟨hmessage, hsent⟩ := h.sent_columns (.inr hdeleting)
  exact h.moveSent (by simp [Delivery.isSent, hdeleting]) rfl ⟨hmessage, hsent, rfl⟩

theorem recoverDeletion {cutoff now : Instant} (h : WellFormed ⟨r, some d⟩) :
    WellFormed ⟨r, some (d.recoverDeletion cutoff now)⟩ := by
  unfold Delivery.recoverDeletion
  split
  · next hstale =>
      have hdeleting : d.status = .deleting :=
        of_decide_eq_true (Bool.and_eq_true_iff.1 hstale).1
      obtain ⟨hmessage, hsent⟩ := h.sent_columns (.inr hdeleting)
      exact h.moveSent (by simp [Delivery.isSent, hdeleting]) rfl ⟨hmessage, hsent, rfl⟩
  · exact h

end Entitlement.WellFormed

namespace SessionStep

variable {copied : ℕ → Prop} {o o' : Option Entitlement}

theorem wellFormed (h : SessionStep copied o o') (ho : ∀ e, o = some e → e.WellFormed) :
    ∀ e, o' = some e → e.WellFormed := by
  rintro e rfl
  cases h with
  | created id telegramUserId movieId row clock ttl =>
      exact ⟨⟨rfl, rfl⟩, rfl, by rintro d ⟨⟩, by rintro d ⟨⟩⟩
  | prompt r d messageId claimedAt =>
      obtain ⟨hp, ha, hd, hs⟩ := ho _ rfl
      exact ⟨hp, ha, hd, hs⟩
  | expire r d now hr => exact (ho _ rfl).expire hr
  | clientCompleted r d now hr =>
      refine (ho _ rfl).recordProof rfl rfl fun hproven => ?_
      simp_all [RewardSession.isProven]
  | providerConfirmed r d now hr =>
      refine (ho _ rfl).recordProof rfl rfl fun hproven => ?_
      simp_all [RewardSession.isProven]
  | preserve r d reason now hr => exact (ho _ rfl).preserve hr
  | deliveryAdded r id row hr => exact (ho _ rfl).deliveryAdded hr
  | claimSend r d now hr hsent hdeleted hsending => exact (ho _ rfl).claimSend hr
  -- the two repairs answer a ready session beside a claimed delivery: no well-formed pair is one
  | repairDelivered r d now hr hd' =>
      have hpending := RewardSession.status_of_isReady (ho _ rfl).delivery hr
      rcases hd' with hd' | hd' <;> cases hpending.symm.trans hd'
  | repairDelivering r d hr hd' =>
      cases (RewardSession.status_of_isReady (ho _ rfl).delivery hr).symm.trans hd'
  | resetFailedSend r d reason error now hr => exact (ho _ rfl).resetFailedSend hr
  | finalizeSent r d messageId now deleteAt hr hd' hm => exact (ho _ rfl).finalizeSent hr
  | recoverSend r d error hd' => exact (ho _ rfl).recoverSend hd'
  | claimDeletion r d now hd' => exact (ho _ rfl).claimDeletion hd'
  | markDeleted r d now hd' =>
      exact (ho _ rfl).moveSent (by simp [Delivery.isSent, hd']) rfl rfl
  | markDeleteFailed r d error hd' =>
      exact (ho _ rfl).moveSent (by simp [Delivery.isSent, hd']) rfl rfl
  | reschedule r d error now hd' => exact (ho _ rfl).reschedule hd'
  | recoverDeletion r d cutoff now => exact (ho _ rfl).recoverDeletion

end SessionStep

/-! ### A move continues an entitlement -/

namespace RewardSession

variable {r r' r'' : RewardSession} {now : Instant}

theorem isActive_eq_false_iff : r.isActive = false ↔
    r.status = .expired ∨ r.status = .unavailable ∨ r.status = .delivered ∨
      r.unavailableAt.isSome := by
  cases hr : r.status <;> cases hu : r.unavailableAt <;> simp [isActive, activeStatuses, hr, hu]

theorem Continues.refl (r : RewardSession) : r.Continues r :=
  ⟨rfl, rfl, rfl, rfl, rfl, fun _ => rfl, fun _ => rfl, fun _ => rfl, fun h => h, fun h => h,
    fun h => h, fun h => h⟩

theorem Continues.trans (h : r.Continues r') (h' : r'.Continues r'') : r.Continues r'' where
  telegramUserId := h'.telegramUserId.trans h.telegramUserId
  movieId := h'.movieId.trans h.movieId
  movieQualityId := h'.movieQualityId.trans h.movieQualityId
  quality := h'.quality.trans h.quality
  expiresAt := h'.expiresAt.trans h.expiresAt
  clientCompletedAt hr := by
    have hr' := h.clientCompletedAt hr
    rw [h'.clientCompletedAt (by rwa [hr']), hr']
  providerConfirmedAt hr := by
    have hr' := h.providerConfirmedAt hr
    rw [h'.providerConfirmedAt (by rwa [hr']), hr']
  unavailableAt hr := by
    have hr' := h.unavailableAt hr
    rw [h'.unavailableAt (by rwa [hr']), hr']
  rewarded hr := h'.rewarded (h.rewarded hr)
  delivered hr := h'.delivered (h.delivered hr)
  expired hr := h'.expired (h.expired hr)
  inactive hr := h'.inactive (h.inactive hr)

/-- Recomputing the status of a session that is not expired. -/
theorem continues_refreshStatus (hexpired : r.status ≠ .expired)
    (hproven : r.isRewarded → r.isProven) : r.Continues (r.refreshStatus now) := by
  by_cases hs : r.status ∈ [RewardStatus.unavailable, .delivering, .delivered]
  · rw [refreshStatus, if_pos hs]
    exact .refl r
  · have hinactive : r.isActive = false → r.unavailableAt.isSome := by
      rw [isActive_eq_false_iff]
      simp_all
    have hdelivered : r.status ≠ .delivered := by simp_all
    have hframe : (r.refreshStatus now).unavailableAt = r.unavailableAt := by
      rw [refreshStatus, if_neg hs]
      split <;> rfl
    constructor
    case rewarded => exact fun hr => refreshStatus_of_isProven (hproven hr)
    case inactive =>
      intro h
      rw [isActive_eq_false_iff, hframe]
      exact .inr (.inr (.inr (hinactive h)))
    case delivered => exact fun h => absurd h hdelivered
    case expired => exact fun h => absurd h hexpired
    all_goals
      rw [refreshStatus, if_neg hs]
      split <;> simp

theorem continues_markClient (hexpired : r.status ≠ .expired) (hp : r.ProofsFit) :
    r.Continues (r.markClient now) := by
  have hstamp : r.Continues { r with clientCompletedAt := r.clientCompletedAt.or (some now) } := by
    refine ⟨rfl, rfl, rfl, rfl, rfl, ?_, fun _ => rfl, fun _ => rfl, fun h => h, fun h => h,
      fun h => h, fun h => h⟩
    intro h
    exact Option.or_of_isSome h
  refine hstamp.trans (continues_refreshStatus hexpired ?_)
  intro hr
  have hproven := hp.isProven_iff.2 hr
  simp_all [isProven]

theorem continues_markProvider (hexpired : r.status ≠ .expired) (hp : r.ProofsFit) :
    r.Continues (r.markProvider now) := by
  have hstamp : r.Continues
      { r with providerConfirmedAt := r.providerConfirmedAt.or (some now) } := by
    refine ⟨rfl, rfl, rfl, rfl, rfl, fun _ => rfl, ?_, fun _ => rfl, fun h => h, fun h => h,
      fun h => h, fun h => h⟩
    intro h
    exact Option.or_of_isSome h
  refine hstamp.trans (continues_refreshStatus hexpired ?_)
  intro hr
  have hproven := hp.isProven_iff.2 hr
  simp_all [isProven]

theorem continues_preserveUnavailable {reason : UnavailableReason} (hr : r.isRewarded)
    (hdelivered : r.status ≠ .delivered) : r.Continues (r.preserveUnavailable reason now) := by
  have hexpired : r.status ≠ .expired := by
    rcases isRewarded_iff.1 hr with h | h | h | h <;> simp [h]
  refine ⟨rfl, rfl, rfl, rfl, rfl, fun _ => rfl, fun _ => rfl, ?_, fun _ => rfl,
    fun h => absurd h hdelivered, fun h => absurd h hexpired, fun _ => rfl⟩
  intro h
  exact Option.or_of_isSome h

/-- A session that is being delivered is inactive exactly when it is a retained one. -/
theorem continues_claimSend (hr : r.isReady) (ha : r.AvailabilityFits) :
    r.Continues (r.claimSend now) := by
  have hstatus := isReady_iff.1 hr
  refine ⟨rfl, rfl, rfl, rfl, rfl, fun _ => rfl, fun _ => rfl, fun _ => rfl, fun _ => rfl,
    ?_, ?_, ?_⟩
  · rcases hstatus with h | h <;> simp [h]
  · rcases hstatus with h | h <;> simp [h]
  · simp only [isActive_eq_false_iff]
    rcases hstatus with h | h
    · simp [h, claimSend]
    · simpa [h, claimSend, AvailabilityFits] using ha

theorem continues_releaseSend (hr : r.status = .delivering) : r.Continues r.releaseSend := by
  refine ⟨rfl, rfl, rfl, rfl, rfl, fun _ => rfl, fun _ => rfl, fun _ => rfl, ?_, by simp [hr],
    by simp [hr], ?_⟩
  · unfold releaseSend
    split <;> simp [isRewarded, rewardedStatuses]
  · intro h
    have hunavailable : r.unavailableAt.isSome := by
      simpa [isActive_eq_false_iff, hr] using h
    simp [isActive_eq_false_iff, releaseSend, hunavailable]

theorem continues_resetFailedSend {reason : Option UnavailableReason} :
    r.Continues (r.resetFailedSend reason now) := by
  by_cases hr : r.status = .delivering
  · cases reason with
    | none =>
        rw [resetFailedSend_none hr]
        exact continues_releaseSend hr
    | some reason =>
        rw [resetFailedSend_some hr]
        exact continues_preserveUnavailable (isRewarded_iff.2 (by simp [hr])) (by simp [hr])
  · have hr' : r.resetFailedSend reason now = r := if_neg hr
    rw [hr']
    exact .refl r

theorem continues_recoverSend : r.Continues r.recoverSend := by
  unfold recoverSend
  split
  · next hr => exact continues_releaseSend hr
  · exact .refl r

theorem continues_finalizeSent (hr : r.isRewarded) : r.Continues (r.finalizeSent now) := by
  have hexpired : r.status ≠ .expired := by
    rcases isRewarded_iff.1 hr with h | h | h | h <;> simp [h]
  exact ⟨rfl, rfl, rfl, rfl, rfl, fun _ => rfl, fun _ => rfl, fun _ => rfl, fun _ => rfl,
    fun _ => rfl, fun h => absurd h hexpired, fun _ => rfl⟩

theorem status_of_refreshStatus_delivered (h : (r.refreshStatus now).status = .delivered) :
    r.status = .delivered := by
  unfold refreshStatus at h
  split at h
  · exact h
  · split at h <;> cases h

theorem status_of_releaseSend : r.releaseSend.status ≠ .delivered := by
  unfold releaseSend
  split <;> simp

theorem status_of_recoverSend_delivered (h : r.recoverSend.status = .delivered) :
    r.status = .delivered := by
  unfold recoverSend at h
  split at h
  · exact absurd h status_of_releaseSend
  · exact h

theorem status_of_resetFailedSend_delivered {reason : Option UnavailableReason}
    (h : (r.resetFailedSend reason now).status = .delivered) : r.status = .delivered := by
  unfold resetFailedSend at h
  split at h
  · cases reason with
    | none => exact absurd h status_of_releaseSend
    | some reason => cases h
  · exact h

theorem continues_expire (hr : r.isOverdue now) : r.Continues { r with status := .expired } := by
  have hstatus : r.status ∈ expirableStatuses := by
    simpa using (Bool.and_eq_true_iff.1 hr).1
  refine ⟨rfl, rfl, rfl, rfl, rfl, fun _ => rfl, fun _ => rfl, fun _ => rfl, ?_, ?_, fun _ => rfl,
    fun _ => rfl⟩
  · rw [isRewarded_iff]
    rintro (h | h | h | h) <;> simp [h, expirableStatuses] at hstatus
  · intro h
    simp [h, expirableStatuses] at hstatus

end RewardSession

namespace Entitlement

theorem Continues.trans {e f g : Entitlement} (h : e.Continues f) (h' : f.Continues g) :
    e.Continues g := by
  refine ⟨h.toContinues.trans h'.toContinues, ?_⟩
  intro d hd
  obtain ⟨d', hd', hid'⟩ := h.deliveryId d hd
  obtain ⟨d'', hd'', hid''⟩ := h'.deliveryId d' hd'
  exact ⟨d'', hd'', hid''.trans hid'⟩

variable {r r' : RewardSession} {d : Option Delivery} {e e' : Delivery}

/-- A move of the session alone. -/
theorem continues_reward (h : r.Continues r') : Continues ⟨r, d⟩ ⟨r', d⟩ :=
  ⟨h, fun e he => ⟨e, he, rfl⟩⟩

/-- A move of both rows. -/
theorem continues_both (h : r.Continues r') (he : e'.id = e.id) :
    Continues ⟨r, some e⟩ ⟨r', some e'⟩ :=
  ⟨h, by rintro d ⟨⟩; exact ⟨e', rfl, he⟩⟩

/-- A move of the delivery alone. -/
theorem continues_delivery (he : e'.id = e.id) : Continues ⟨r, some e⟩ ⟨r, some e'⟩ :=
  continues_both (.refl r) he

end Entitlement

namespace SessionStep

variable {copied : ℕ → Prop} {o o' : Option Entitlement}

/-- A session is never forgotten, and a move from a well-formed entitlement continues it. -/
theorem continues {e : Entitlement} (h : SessionStep copied (some e) o') (he : e.WellFormed) :
    ∃ e', o' = some e' ∧ e.Continues e' := by
  obtain ⟨hp, ha, hd, hs⟩ := he
  cases h with
  | prompt r d messageId claimedAt =>
      exact ⟨_, rfl, Entitlement.continues_reward
        ⟨rfl, rfl, rfl, rfl, rfl, fun _ => rfl, fun _ => rfl, fun _ => rfl, fun h => h, fun h => h,
          fun h => h, fun h => h⟩⟩
  | expire r d now hr =>
      exact ⟨_, rfl, Entitlement.continues_reward (RewardSession.continues_expire hr)⟩
  | clientCompleted r d now hr =>
      exact ⟨_, rfl, Entitlement.continues_reward (RewardSession.continues_markClient hr hp)⟩
  | providerConfirmed r d now hr =>
      have hexpired : r.status ≠ .expired := by
        rintro h
        simp [RewardSession.isActive, h, activeStatuses] at hr
      exact ⟨_, rfl,
        Entitlement.continues_reward (RewardSession.continues_markProvider hexpired hp)⟩
  | preserve r d reason now hr =>
      have hdelivered : r.status ≠ .delivered := by
        rcases RewardSession.isReady_iff.1 hr with h | h <;> simp [h]
      exact ⟨_, rfl, Entitlement.continues_reward
        (RewardSession.continues_preserveUnavailable (RewardSession.isRewarded_of_isReady hr)
          hdelivered)⟩
  | deliveryAdded r id row hr =>
      exact ⟨_, rfl, .refl r, by rintro d ⟨⟩⟩
  | claimSend r d now hr hsent hdeleted hsending =>
      exact ⟨_, rfl, Entitlement.continues_both (RewardSession.continues_claimSend hr ha) rfl⟩
  | repairDelivered r d now hr hd' =>
      -- a ready session has its row pending: the repair branches of the source are never taken
      have hpending := RewardSession.status_of_isReady hd hr
      rcases hd' with hd' | hd' <;> cases hpending.symm.trans hd'
  | repairDelivering r d hr hd' =>
      cases (RewardSession.status_of_isReady hd hr).symm.trans hd'
  | resetFailedSend r d reason error now hr =>
      exact ⟨_, rfl, Entitlement.continues_both RewardSession.continues_resetFailedSend (by simp)⟩
  | finalizeSent r d messageId now deleteAt hr hd' hm =>
      exact ⟨_, rfl, Entitlement.continues_both (RewardSession.continues_finalizeSent hr) rfl⟩
  | recoverSend r d error hd' =>
      exact ⟨_, rfl, Entitlement.continues_both RewardSession.continues_recoverSend rfl⟩
  | claimDeletion r d now hd' =>
      exact ⟨_, rfl, Entitlement.continues_delivery (by simp)⟩
  | markDeleted r d now hd' => exact ⟨_, rfl, Entitlement.continues_delivery rfl⟩
  | markDeleteFailed r d error hd' => exact ⟨_, rfl, Entitlement.continues_delivery rfl⟩
  | reschedule r d error now hd' => exact ⟨_, rfl, Entitlement.continues_delivery rfl⟩
  | recoverDeletion r d cutoff now =>
      exact ⟨_, rfl, Entitlement.continues_delivery (by simp)⟩

/-- A session becomes a delivered one only by a finalized send. -/
theorem copied_of_delivered {e e' : Entitlement} (h : SessionStep copied (some e) (some e'))
    (he : e.WellFormed) (hnot : e.reward.status ≠ .delivered)
    (hdelivered : e'.reward.status = .delivered) : ∃ messageId, copied messageId := by
  obtain ⟨hp, ha, hd, hs⟩ := he
  cases h with
  | finalizeSent r d messageId now deleteAt hr hd' hm => exact ⟨messageId, hm⟩
  | prompt r d messageId claimedAt => exact absurd hdelivered hnot
  | expire r d now hr => cases hdelivered
  | clientCompleted r d now hr =>
      exact absurd (RewardSession.status_of_refreshStatus_delivered hdelivered) hnot
  | providerConfirmed r d now hr =>
      exact absurd (RewardSession.status_of_refreshStatus_delivered hdelivered) hnot
  | preserve r d reason now hr => cases hdelivered
  | deliveryAdded r id row hr => exact absurd hdelivered hnot
  | claimSend r d now hr hsent hdeleted hsending => cases hdelivered
  | repairDelivered r d now hr hd' =>
      have hpending := RewardSession.status_of_isReady hd hr
      rcases hd' with hd' | hd' <;> cases hpending.symm.trans hd'
  | repairDelivering r d hr hd' => cases hdelivered
  | resetFailedSend r d reason error now hr =>
      exact absurd (RewardSession.status_of_resetFailedSend_delivered hdelivered) hnot
  | recoverSend r d error hd' =>
      exact absurd (RewardSession.status_of_recoverSend_delivered hdelivered) hnot
  | claimDeletion r d now hd' => exact absurd hdelivered hnot
  | markDeleted r d now hd' => exact absurd hdelivered hnot
  | markDeleteFailed r d error hd' => exact absurd hdelivered hnot
  | reschedule r d error now hd' => exact absurd hdelivered hnot
  | recoverDeletion r d cutoff now => exact absurd hdelivered hnot

end SessionStep

/-! ### Several moves -/

namespace SessionSteps

variable {copied : ℕ → Prop} {o o' : Option Entitlement}

theorem wellFormed (h : SessionSteps copied o o') (ho : ∀ e, o = some e → e.WellFormed) :
    ∀ e, o' = some e → e.WellFormed := by
  induction h with
  | refl => exact ho
  | tail _ hstep ih => exact hstep.wellFormed ih

theorem continues {e : Entitlement} (h : SessionSteps copied (some e) o') (he : e.WellFormed) :
    ∃ e', o' = some e' ∧ e.Continues e' := by
  induction h with
  | refl => exact ⟨e, rfl, .refl _, fun d hd => ⟨d, hd, rfl⟩⟩
  | tail hsteps hstep ih =>
      obtain ⟨f, rfl, hef⟩ := ih
      have hf : f.WellFormed := wellFormed hsteps (by rintro _ ⟨⟩; exact he) f rfl
      obtain ⟨g, rfl, hfg⟩ := hstep.continues hf
      exact ⟨g, rfl, hef.trans hfg⟩

/-- Among moves that end in a delivered session there is a finalized send. -/
theorem copied_of_delivered {e e' : Entitlement} (h : SessionSteps copied (some e) o')
    (he : e.WellFormed) (ho : o' = some e') (hnot : e.reward.status ≠ .delivered)
    (hdelivered : e'.reward.status = .delivered) : ∃ messageId, copied messageId := by
  induction h generalizing e' with
  | refl =>
      cases ho
      exact absurd hdelivered hnot
  | tail hsteps hstep ih =>
      obtain ⟨f, rfl, hef⟩ := continues hsteps he
      by_cases hf : f.reward.status = .delivered
      · exact ih rfl hf
      · cases ho
        exact hstep.copied_of_delivered (wellFormed hsteps (by rintro _ ⟨⟩; exact he) f rfl) hf
          hdelivered

end SessionSteps
end CineGate
