/-
**The messages that were deleted.**

A delivery that is `deleted` has to name a message whose removal Telegram has confirmed, by deleting
it or by not finding it.  A worker reports the end of its deletion by the id of the delivery alone.
Between the worker's call and its report a late completion can put another message into the delivery
and another worker can claim it again; the report then ends a delivery that names the message that
is still there.

* `World.NeverFalselyDeleted` — the message of every deleted delivery is gone;
* `World.ReportsItsMessage` — the condition on a step;
* `DeliveryStep.deleted` — the one way a delivery becomes deleted;
* `World.never_falsely_deleted_iff_reports_its_message` — along any run no delivery is falsely
  deleted exactly when every step meets the condition.
-/

import CineGate.SentCopies

set_option relaxedAutoImplicit false
set_option autoImplicit false

namespace CineGate
namespace World

variable {w : World}

/-- **No delivery is falsely deleted**: Telegram has confirmed the removal of the very message that
a deleted delivery names. -/
def NeverFalselyDeleted (w : World) : Prop :=
  ∀ d ∈ w.db.deliveries, d.status = .deleted →
    ∃ messageId, d.telegramMessageId = some messageId ∧ messageId ∈ w.gone

/-- The event reports no deletion for a delivery that is by now deleting another message than the
one of the report, unless that one is gone as well. -/
def ReportsItsMessage (w : World) (event : Event) : Prop :=
  ∀ taskId clock task answer d messageId, event = .reportDeletion taskId clock →
    w.tasks.find? taskId = some task → task.answer = some answer → task.reported = false →
      answer.report = .deleted → w.db.deliveries.find? task.item.deliveryId = some d →
        d.status = .deleting → d.telegramMessageId = some messageId →
          messageId = task.item.telegramMessageId ∨ messageId ∈ w.gone

/-! ### Becoming deleted -/

/-- A delivery is deleted from before, or the report of a deletion has found it deleting. -/
theorem DeliveryStep.deleted {event : Event} {d d' : Delivery} (h : DeliveryStep w event d d')
    (hdeleted : d'.status = .deleted) :
    d' = d ∨ d.status = .deleting ∧ d'.telegramMessageId = d.telegramMessageId ∧
      ∃ taskId clock task answer, event = .reportDeletion taskId clock ∧
        w.tasks.find? taskId = some task ∧ task.answer = some answer ∧ task.reported = false ∧
          answer.report = .deleted ∧ task.item.deliveryId = d.id := by
  cases h with
  | idle => exact .inl rfl
  | claimed => cases hdeleted
  | finalized => cases hdeleted
  | reset => cases hdeleted
  | sendRecovered => cases hdeleted
  | deletionRecovered => cases hdeleted
  | deletionClaimed limit locked clock he hdue =>
      -- a claim takes the delivery to `deleting`, or gives its deletion up
      unfold Delivery.claimDeletion at hdeleted
      split at hdeleted <;> cases hdeleted
  | reported taskId clock task answer he ht ha hopen hid hdeleting =>
      cases hreport : answer.report with
      | deleted =>
          refine .inr ⟨hdeleting, ?_, taskId, clock, task, answer, he, ht, ha, hopen, hreport,
            hid.symm⟩
          simp [reportDelivery, hreport, Delivery.whenDeleting, hdeleting, Delivery.markDeleted]
      | failed error =>
          simp [reportDelivery, hreport, Delivery.whenDeleting, hdeleting,
            Delivery.markDeleteFailed] at hdeleted
      | retry error =>
          simp [reportDelivery, hreport, Delivery.whenDeleting, hdeleting,
            Delivery.reschedule] at hdeleted

/-- A delivery that is being deleted names a message. -/
theorem Sound.telegramMessageId_of_deleting (hw : w.Sound) {d : Delivery} (hd : d ∈ w.db.deliveries)
    (hdeleting : d.status = .deleting) : ∃ messageId, d.telegramMessageId = some messageId := by
  obtain ⟨r, he⟩ := hw.entitlement_of_delivery hd
  have hschedule : d.OnSchedule := (hw.db.wellFormed _ _ he).schedule d rfl
  simp only [Delivery.OnSchedule, hdeleting] at hschedule
  exact Option.isSome_iff_exists.1 hschedule.1

section Step

variable [UnicodeData] {parser : ArchiveParser}

/-- A step that meets the condition deletes no delivery falsely. -/
theorem Ledger.neverFalselyDeleted_step (hw : w.Ledger) (hnever : w.NeverFalselyDeleted)
    {event : Event} (hevent : w.ReportsItsMessage event) :
    (World.step parser w event).NeverFalselyDeleted := by
  intro d' hd' hdeleted
  have hledger : w.LedgerStep (World.step parser w event) := hw.toSound.ledgerStep event
  have hfind' := KeyedTable.find?_of_mem hd'
  cases hfind : w.db.deliveries.find? d'.id with
  | none =>
      -- a new delivery is being sent
      obtain ⟨-, -, -, -, hsending, -⟩ := hw.toSound.delivery_origin hfind' hfind
      cases hsending.symm.trans hdeleted
  | some d =>
      have hd : d ∈ w.db.deliveries := KeyedTable.mem_of_find? hfind
      have hstep : DeliveryStep w event d d' := by
        rw [Option.some.inj (hfind'.symm.trans
          (hw.toSound.find?_deliveries_step parser event hfind))]
        exact deliveryStep hd
      rcases hstep.deleted hdeleted with rfl | ⟨hdeleting, hsame, taskId, clock, task, answer, he,
        ht, ha, hopen, hreport, hid⟩
      · obtain ⟨messageId, hrecorded, hgone⟩ := hnever d' hd hdeleted
        exact ⟨messageId, hrecorded, hledger.gone messageId hgone⟩
      · obtain ⟨messageId, hrecorded⟩ := hw.toSound.telegramMessageId_of_deleting hd hdeleting
        refine ⟨messageId, hsame.trans hrecorded, hledger.gone messageId ?_⟩
        rcases hevent taskId clock task answer d messageId he ht ha hopen hreport
          (hid ▸ KeyedTable.find?_of_mem hd) hdeleting hrecorded with rfl | hgone
        · exact hw.answered task (KeyedTable.mem_of_find? ht) answer ha hreport
        · exact hgone

/-- A step that deletes no delivery falsely meets the condition. -/
theorem Ledger.reportsItsMessage (hw : w.Ledger) {event : Event}
    (hnever : (World.step parser w event).NeverFalselyDeleted) : w.ReportsItsMessage event := by
  rintro taskId clock task answer d messageId rfl ht ha hopen hreport hd hdeleting hrecorded
  have hsame : SameLedger _ (World.step parser w (.reportDeletion taskId clock)) :=
    reportDeletion_ledger ht ha hopen
  have hafter : w.deliveryAfter (.reportDeletion taskId clock) d = d.markDeleted clock.utcnow := by
    simp [deliveryAfter, ht, ha, hopen, KeyedTable.key_of_find? hd, reportDelivery, hreport,
      Delivery.whenDeleting, hdeleting]
  have hfind := hw.toSound.find?_deliveries_step parser (.reportDeletion taskId clock) hd
  rw [hafter] at hfind
  obtain ⟨messageId', hrecorded', hgone⟩ := hnever _ (KeyedTable.mem_of_find? hfind) rfl
  obtain rfl : messageId = messageId' := Option.some.inj (hrecorded.symm.trans hrecorded')
  rw [hsame.gone] at hgone
  exact .inr hgone

/-- **Along a run no delivery is falsely deleted exactly when every step meets the condition.** -/
theorem never_falsely_deleted_iff_reports_its_message (parser : ArchiveParser)
    (settings : Settings) (archive : ArchiveTables) (events : List Event) :
    Transition.Always (World.step parser) NeverFalselyDeleted (initial settings archive) events ↔
      Transition.Along (World.step parser) ReportsItsMessage (initial settings archive) events := by
  refine Transition.always_iff_along (J := Ledger) (fun _ event hw _ _ => hw.step event)
    (fun w event hw hnever => ⟨hw.reportsItsMessage, hw.neverFalselyDeleted_step hnever⟩)
    (initial_ledger settings archive) (fun _ hd => by cases hd) events

end Step

section Counterexample

attribute [local instance] UnicodeData.asciiArabic

/-- While a worker deletes the first copy, the late completion of a released attempt puts the second
one in its place and another worker claims that one; then the first worker reports. -/
def lateReport : List Event :=
  earning ++ [.prepare 40 (fun r => some ⟨r.movie, []⟩) (atSecond 30),
    .recoverStaleSends 300 (fun _ => false) (atSecond 1000),
    .prepare 40 (fun r => some ⟨r.movie, []⟩) (atSecond 1001),
    .copyMessage 1 (.copied 901), .copyMessage 2 (.copied 902),
    .complete 1 (atSecond 1002), .claimDueDeletions 50 (fun _ => false) (atSecond 2000),
    .deleteMessage 1 .deleted, .complete 2 (atSecond 2001),
    .claimDueDeletions 50 (fun _ => false) (atSecond 3000), .reportDeletion 1 (atSecond 3001)]

theorem lateReport_deletes_falsely :
    ¬ ((initial {} oneFile).after {} lateReport).NeverFalselyDeleted := by
  intro hnever
  have hd : ∃ d, ((initial {} oneFile).after {} lateReport).db.deliveries.find? 1 = some d ∧
      d.status = .deleted ∧ d.telegramMessageId = some 902 := ⟨_, rfl, by decide +kernel⟩
  have hgone : ((initial {} oneFile).after {} lateReport).gone = [901] := by decide +kernel
  obtain ⟨d, hd, hdeleted, hrecorded⟩ := hd
  obtain ⟨messageId, hrecorded', hmem⟩ := hnever d (KeyedTable.mem_of_find? hd) hdeleted
  obtain rfl : 902 = messageId := Option.some.inj (hrecorded.symm.trans hrecorded')
  rw [hgone] at hmem
  simp at hmem

end Counterexample

end World
end CineGate
