/-
**Late completions of a send.**

A send claim is a status of two shared rows and carries no token of the attempt it was given to.
When a stale recovery has released the claim of an attempt and a newer attempt holds the delivery,
the failed completion of the older one resets the rows all the same: the newer claim is released and
a third attempt is let in beside it.

* `World.ExclusiveClaims` — a delivery has one current attempt at most, and its claim stands;
* `World.NoLateReset` — no superseded attempt resets a delivery that is being sent;
* `World.exclusive_claims_iff_no_late_reset` — along any run the first holds throughout exactly when
  every step meets the second.
-/

import CineGate.SystemSteps
import CineGate.DeliveryGuarantees

set_option relaxedAutoImplicit false
set_option autoImplicit false

namespace CineGate

/-- The attempt holds a claim that is neither completed nor released by a stale recovery. -/
def SendAttempt.isCurrent (attempt : SendAttempt) : Bool :=
  attempt.isOpen && !attempt.superseded

namespace World

variable {w : World}

/-- No two current attempts share a delivery, and the claim of a current attempt has not been
released. -/
structure ExclusiveClaims (w : World) : Prop where
  exclusive : ∀ a ∈ w.attempts, ∀ b ∈ w.attempts, a.isCurrent → b.isCurrent →
    b.prepared.deliveryId = a.prepared.deliveryId → b = a
  stands : ∀ a ∈ w.attempts, a.isCurrent → ∀ d,
    w.db.deliveries.find? a.prepared.deliveryId = some d → d.status ≠ .pending

/-- The event does not complete a superseded attempt whose copy was refused while its delivery is
being sent. -/
def NoLateReset (w : World) (event : Event) : Prop :=
  ∀ attemptId clock a error, event = .complete attemptId clock →
    w.attempts.find? attemptId = some a → a.superseded → a.phase = .refused error →
      ∀ d, w.db.deliveries.find? a.prepared.deliveryId = some d → d.status ≠ .sending

/-- A delivery that is being sent is being sent by a current attempt. -/
structure Claimed (w : World) : Prop extends w.Sound where
  holder : ∀ d ∈ w.db.deliveries, d.status = .sending →
    ∃ a ∈ w.attempts, a.isCurrent ∧ a.prepared.deliveryId = d.id

/-! ### Statuses after an event -/

/-- A worker's report leaves a delivery neither pending nor being sent. -/
theorem status_reportDelivery {answer : DeleteAnswer} {clock : Clock} {d : Delivery}
    (h : d.status = .deleting) :
    (reportDelivery answer clock d).status ≠ .pending ∧
      (reportDelivery answer clock d).status ≠ .sending := by
  unfold reportDelivery Delivery.whenDeleting
  rw [if_pos h]
  split <;> simp [Delivery.markDeleted, Delivery.markDeleteFailed, Delivery.reschedule, h]

/-- The claim of a deletion leaves a delivery neither pending nor being sent. -/
theorem status_claimDeletion {now : Instant} {d : Delivery} :
    (d.claimDeletion now).status ≠ .pending ∧ (d.claimDeletion now).status ≠ .sending := by
  unfold Delivery.claimDeletion
  split <;> simp

/-- A delivery that is being sent was being sent before, or the event has claimed it. -/
theorem DeliveryStep.sending {event : Event} {d d' : Delivery} (h : DeliveryStep w event d d')
    (hsending : d'.status = .sending) :
    d.status = .sending ∧ d' = d ∨
      ∃ sessionId render clock db' prepared, event = .prepare sessionId render clock ∧
        CineGate.prepare w.db render sessionId clock = .ok (db', .inl prepared) ∧
          d.id = prepared.deliveryId := by
  cases h with
  | idle => exact .inl ⟨hsending, rfl⟩
  | claimed sessionId render clock db' prepared he h hid =>
      exact .inr ⟨sessionId, render, clock, db', prepared, he, h, hid⟩
  | finalized => cases hsending
  | reset => cases hsending
  | sendRecovered => cases hsending
  | deletionRecovered => cases hsending
  | deletionClaimed => exact absurd hsending status_claimDeletion.2
  | reported taskId clock task answer he ht ha hopen hid hdeleting =>
      exact absurd hsending (status_reportDelivery hdeleting).2

/-- A delivery becomes pending by a failed completion or by a stale recovery. -/
theorem DeliveryStep.pending {event : Event} {d d' : Delivery} (h : DeliveryStep w event d d')
    (hd : d.status ≠ .pending) (hpending : d'.status = .pending) :
    d.status = .sending ∧
      ((∃ attemptId clock a error, event = .complete attemptId clock ∧
          w.attempts.find? attemptId = some a ∧ d.id = a.prepared.deliveryId ∧
            a.phase = .refused error) ∨
        ∃ staleSeconds locked clock, event = .recoverStaleSends staleSeconds locked clock ∧
          0 < staleSeconds ∧ d.isStaleSend (clock.utcnow - seconds staleSeconds) locked) := by
  cases h with
  | idle => exact absurd hpending hd
  | claimed => cases hpending
  | finalized => cases hpending
  | reset attemptId clock a error he ha hid hphase hsending =>
      exact ⟨hsending, .inl ⟨attemptId, clock, a, error, he, ha, hid, hphase⟩⟩
  | sendRecovered staleSeconds locked clock he hpos hstale =>
      have hsending : d.status = .sending := by
        simp only [Delivery.isStaleSend, Bool.and_eq_true, decide_eq_true_eq] at hstale
        exact hstale.1.1
      exact ⟨hsending, .inr ⟨staleSeconds, locked, clock, he, hpos, hstale⟩⟩
  | deletionRecovered => cases hpending
  | deletionClaimed => exact absurd hpending status_claimDeletion.1
  | reported taskId clock task answer he ht ha hopen hid hdeleting =>
      exact absurd hpending (status_reportDelivery hdeleting).1

/-- A completion with an answer of Telegram leaves no delivery being sent. -/
theorem status_completeDelivery {a : SendAttempt} {clock : Clock} {d : Delivery}
    (hopen : a.isOpen) (hcopying : a.phase ≠ .copying) :
    (completeDelivery a clock d).status ≠ .sending := by
  unfold completeDelivery
  cases hphase : a.phase with
  | copying => exact absurd hphase hcopying
  | copied messageId =>
      dsimp only
      split
      · next hsent => simp [hsent]
      · simp [Delivery.finalizeSent]
  | refused error =>
      dsimp only [Delivery.resetFailedSend]
      split
      · simp [Delivery.releaseSend]
      · next hsending => exact hsending
  | finalized messageId => simp [SendAttempt.isOpen, hphase] at hopen
  | released => simp [SendAttempt.isOpen, hphase] at hopen

/-! ### Current attempts after an event -/

theorem prepared_attemptAfter (w : World) (event : Event) (a : SendAttempt) :
    (w.attemptAfter event a).prepared = a.prepared := by
  unfold attemptAfter
  split
  · split <;> rfl
  · split
    · split <;> rfl
    · rfl
  · split <;> rfl
  · rfl

/-- A current attempt was current before. -/
theorem isCurrent_of_attemptAfter {event : Event} {a : SendAttempt}
    (h : (w.attemptAfter event a).isCurrent) : a.isCurrent := by
  unfold attemptAfter at h
  split at h
  · split at h
    · next hcopying =>
        simp only [SendAttempt.isCurrent, SendAttempt.isOpen, hcopying.2.1, Bool.and_eq_true] at h ⊢
        exact ⟨trivial, h.2⟩
    · exact h
  · split at h
    · split at h
      · simp [SendAttempt.isCurrent, SendAttempt.isOpen] at h
      · simp [SendAttempt.isCurrent, SendAttempt.isOpen] at h
      · exact h
    · exact h
  · split at h
    · simp [SendAttempt.isCurrent] at h
    · exact h
  · exact h

/-- A current attempt stays current unless the event completes it or releases its delivery. -/
theorem isCurrent_attemptAfter {event : Event} {a : SendAttempt} (h : a.isCurrent)
    (hcomplete : ∀ clock, event = .complete a.id clock → a.phase = .copying)
    (hrecover : ∀ staleSeconds locked clock,
      event = .recoverStaleSends staleSeconds locked clock → 0 < staleSeconds →
        a.prepared.deliveryId ∉ (w.db.staleSends staleSeconds locked clock).map Delivery.id) :
    (w.attemptAfter event a).isCurrent := by
  unfold attemptAfter
  split
  · next attemptId answer =>
      split
      · simp only [SendAttempt.isCurrent, Bool.and_eq_true] at h ⊢
        refine ⟨?_, h.2⟩
        cases answer <;> rfl
      · exact h
  · next attemptId clock =>
      split
      · next hid =>
          rw [hcomplete clock (hid ▸ rfl)]
          exact h
      · exact h
  · next staleSeconds locked clock =>
      split
      · next hstale => exact absurd hstale.2 (hrecover staleSeconds locked clock rfl hstale.1)
      · exact h
  · exact h

/-- The delivery of an attempt. -/
theorem Sound.delivery_of_attempt (hw : w.Sound) {a : SendAttempt} (ha : a ∈ w.attempts) :
    ∃ d, w.db.deliveries.find? a.prepared.deliveryId = some d := by
  obtain ⟨r, d, he, -, hid⟩ := hw.attempts a ha
  exact ⟨d, hid ▸ KeyedTable.find?_of_mem (Db.delivery_mem he rfl).1⟩

/-- A claim is given for a delivery that is pending or new. -/
theorem Sound.begins_pending (hw : w.Sound) {event : Event} {db' : Db} {a : SendAttempt}
    (h : w.Begins event db' a) :
    (∀ d, w.db.deliveries.find? a.prepared.deliveryId = some d → d.status = .pending) ∧
      ∀ d, db'.deliveries.find? a.prepared.deliveryId = some d → d.status = .sending := by
  obtain ⟨render, clock, -, hprepare, -⟩ := h
  refine ⟨fun d hd => ?_, fun d hd => ?_⟩
  · obtain ⟨hmem, hid⟩ := KeyedTable.find?_eq_some.1 hd
    exact hw.pending_of_prepare hprepare hmem hid
  · obtain ⟨r, d₀, movie, row, hclaimed⟩ := prepare_claimed hw.db hw.uniqueKeys hprepare
    rw [hclaimed.deliveryId, hclaimed.deliveries, if_pos rfl] at hd
    cases hd
    rfl

/-- An event begins one attempt at most. -/
theorem begins_unique {event : Event} {w' : World} {a b : SendAttempt}
    (ha : a ∈ w'.attempts) (hb : b ∈ w'.attempts) (hbegins : w.Begins event w'.db a)
    (hbegins' : w.Begins event w'.db b) : b = a := by
  obtain ⟨_, _, -, -, -, -, hid⟩ := hbegins
  obtain ⟨_, _, -, -, -, -, hid'⟩ := hbegins'
  exact w'.attempts.ext_key hb ha (hid'.trans hid.symm)

theorem Begins.isCurrent {event : Event} {db' : Db} {a : SendAttempt} (h : w.Begins event db' a) :
    a.isCurrent := by
  obtain ⟨_, _, -, -, hphase, hsuperseded, -⟩ := h
  simp [SendAttempt.isCurrent, SendAttempt.isOpen, hphase, hsuperseded]

theorem initial_claimed (settings : Settings) (archive : ArchiveTables) :
    (initial settings archive).Claimed :=
  ⟨initial_sound settings archive, fun _ hd => by cases hd⟩

theorem initial_exclusiveClaims (settings : Settings) (archive : ArchiveTables) :
    (initial settings archive).ExclusiveClaims :=
  ⟨fun _ ha => (by cases ha), fun _ ha => (by cases ha)⟩

section Step

variable [UnicodeData] {parser : ArchiveParser}

variable (parser) in
/-- What a claim has added is in the table of attempts. -/
theorem prepare_attempt {sessionId : ℕ} {render : CaptionRenderer} {clock : Clock} {db' : Db}
    {prepared : PreparedDelivery}
    (h : CineGate.prepare w.db render sessionId clock = .ok (db', .inl prepared)) :
    ∃ a ∈ (World.step parser w (.prepare sessionId render clock)).attempts,
      a.isCurrent ∧ a.prepared = prepared := by
  simp only [World.step, World.prepare, h]
  exact ⟨_, KeyedTable.mem_of_find? (KeyedTable.find?_insert_self w.attempts.find?_freshKey),
    rfl, rfl⟩

/-- Every event keeps a current attempt for a delivery that is being sent. -/
theorem Claimed.step (hw : w.Claimed) (event : Event) : (World.step parser w event).Claimed := by
  refine ⟨hw.toSound.step event, fun d' hd' hsending => ?_⟩
  have hfind' := KeyedTable.find?_of_mem hd'
  cases hfind : w.db.deliveries.find? d'.id with
  | none =>
      obtain ⟨a, ha, hbegins, hid, -⟩ := hw.toSound.delivery_origin hfind' hfind
      exact ⟨a, ha, hbegins.isCurrent, hid⟩
  | some d =>
      obtain ⟨hd, hid⟩ := KeyedTable.find?_eq_some.1 hfind
      have hafter := hw.toSound.find?_deliveries_step parser event hfind
      obtain rfl : d' = w.deliveryAfter event d := Option.some.inj (hfind'.symm.trans hafter)
      rcases (deliveryStep hd).sending hsending with ⟨hd_sending, hsame⟩ | ⟨sessionId, render,
        clock, db', prepared, rfl, h, hid'⟩
      · obtain ⟨a, ha, hcurrent, hclaim⟩ := hw.holder d hd hd_sending
        have hfind_a := KeyedTable.find?_of_mem ha
        refine ⟨w.attemptAfter event a, KeyedTable.mem_of_find?
          (hw.toSound.find?_attempts_step parser event hfind_a), ?_, ?_⟩
        · refine isCurrent_attemptAfter hcurrent ?_ ?_
          · -- a completion with an answer would have ended the send
            rintro clock rfl
            by_contra hcopying
            have hopen : a.isOpen := by
              simp only [SendAttempt.isCurrent, Bool.and_eq_true] at hcurrent
              exact hcurrent.1
            have hended : (completeDelivery a clock d).status ≠ .sending :=
              status_completeDelivery hopen hcopying
            refine hended ?_
            rw [← hsending]
            simp [deliveryAfter, hfind_a, hclaim]
          · rintro staleSeconds locked clock rfl hpos hmem
            obtain ⟨d₁, hd₁, hid₁⟩ := List.mem_map.1 hmem
            obtain ⟨hd₁, hstale⟩ := List.mem_filter.1 hd₁
            have heq : d₁ = d := w.db.deliveries.ext_key hd₁ hd (hid₁.trans hclaim)
            have hstale : d.isStaleSend (clock.utcnow - seconds staleSeconds) locked :=
              heq ▸ hstale
            have hpending :
                (w.deliveryAfter (.recoverStaleSends staleSeconds locked clock) d).status =
                  .pending := by
              simp [deliveryAfter, hpos, hstale, Delivery.releaseSend]
            cases hpending.symm.trans hsending
        · rw [prepared_attemptAfter, hclaim, hsame]
      · obtain ⟨a, ha, hcurrent, hprepared⟩ := prepare_attempt parser h
        exact ⟨a, ha, hcurrent, by rw [hprepared, ← hid', hid]⟩

/-- A late reset leaves the open attempt without its claim. -/
theorem Claimed.noLateReset_of_exclusiveClaims (hw : w.Claimed) {event : Event}
    (hclaims' : (World.step parser w event).ExclusiveClaims) : w.NoLateReset event := by
  intro attemptId clock a error he ha hsuperseded hphase d hd hsending
  subst he
  obtain ⟨hd, hid⟩ := KeyedTable.find?_eq_some.1 hd
  -- the send that is reset belongs to another attempt, which goes on copying
  obtain ⟨b, hb, hcurrent, hclaim⟩ := hw.holder d hd hsending
  have hcurrent' : (w.attemptAfter (.complete attemptId clock) b).isCurrent := by
    refine isCurrent_attemptAfter hcurrent (fun clock' he => ?_) (fun _ _ _ he => ?_)
    · cases he
      have hba : b = a := Option.some.inj ((KeyedTable.find?_of_mem hb).symm.trans ha)
      simp [SendAttempt.isCurrent, hba, hsuperseded] at hcurrent
    · cases he
  have hb' := hw.toSound.find?_attempts_step parser (.complete attemptId clock)
    (KeyedTable.find?_of_mem hb)
  have hd' := hw.toSound.find?_deliveries_step parser (.complete attemptId clock)
    (KeyedTable.find?_of_mem hd)
  refine hclaims'.stands _ (KeyedTable.mem_of_find? hb') hcurrent' _
    (by rw [prepared_attemptAfter, hclaim]; exact hd') ?_
  simp [deliveryAfter, ha, hid, completeDelivery, hphase, Delivery.resetFailedSend, hsending,
    Delivery.releaseSend]

/-- An attempt begins on a delivery that no current attempt holds. -/
theorem Claimed.deliveryId_ne_of_begins (hw : w.Claimed) (hclaims : w.ExclusiveClaims)
    {event : Event} {a b : SendAttempt} (hb : b ∈ w.attempts) (hcurrent : b.isCurrent)
    (hbegins : w.Begins event (World.step parser w event).db a) :
    b.prepared.deliveryId ≠ a.prepared.deliveryId := by
  intro hid
  obtain ⟨d, hd⟩ := hw.toSound.delivery_of_attempt hb
  exact hclaims.stands b hb hcurrent d hd ((hw.toSound.begins_pending hbegins).1 d (hid ▸ hd))

/-- A claim stands unless a late reset takes it away. -/
theorem Claimed.stands_step (hw : w.Claimed) (hclaims : w.ExclusiveClaims) {event : Event}
    (hlate : w.NoLateReset event) {a₀ : SendAttempt} (ha₀ : a₀ ∈ w.attempts)
    (hcurrent : (w.attemptAfter event a₀).isCurrent) {d' : Delivery}
    (hd' : (World.step parser w event).db.deliveries.find? a₀.prepared.deliveryId = some d') :
    d'.status ≠ .pending := by
  intro hpending
  obtain ⟨d, hd⟩ := hw.toSound.delivery_of_attempt ha₀
  have hcurrent₀ := isCurrent_of_attemptAfter hcurrent
  have hafter := hw.toSound.find?_deliveries_step parser event hd
  obtain rfl : d' = w.deliveryAfter event d := Option.some.inj (hd'.symm.trans hafter)
  obtain ⟨hmem, hid⟩ := KeyedTable.find?_eq_some.1 hd
  obtain ⟨hsending, ⟨attemptId, clock, b, error, rfl, hb, hid', hphase⟩ |
    ⟨staleSeconds, locked, clock, rfl, hpos, hstale⟩⟩ :=
      (deliveryStep hmem).pending (hclaims.stands a₀ ha₀ hcurrent₀ d hd) hpending
  · -- the failed completion is that of a superseded attempt, or of `a₀` itself
    obtain ⟨hb_mem, rfl⟩ := KeyedTable.find?_eq_some.1 hb
    have hcurrent_b : b.isCurrent := by
      have hsuperseded : b.superseded ≠ true := fun h =>
        hlate b.id clock b error rfl hb h hphase d (hid' ▸ hid ▸ hd) hsending
      simp [SendAttempt.isCurrent, SendAttempt.isOpen, hphase, hsuperseded]
    obtain rfl := hclaims.exclusive a₀ ha₀ b hb_mem hcurrent₀ hcurrent_b (hid'.symm.trans hid)
    simp [attemptAfter, hphase, SendAttempt.isCurrent, SendAttempt.isOpen] at hcurrent
  · -- the recovery that releases a send supersedes its attempt
    have hreleased : a₀.prepared.deliveryId ∈
        (w.db.staleSends staleSeconds locked clock).map Delivery.id :=
      hid ▸ List.mem_map_of_mem (List.mem_filter.2 ⟨hmem, hstale⟩)
    simp [attemptAfter, hpos, hreleased, SendAttempt.isCurrent] at hcurrent

/-- **A step keeps the claims exclusive exactly when it is no late reset.** -/
theorem Claimed.exclusiveClaims_step (hw : w.Claimed) (hclaims : w.ExclusiveClaims)
    (event : Event) :
    (World.step parser w event).ExclusiveClaims ↔ w.NoLateReset event := by
  refine ⟨hw.noLateReset_of_exclusiveClaims, fun hlate => ⟨?_, ?_⟩⟩
  · intro a ha b hb hcurrent_a hcurrent_b hid
    rcases hw.toSound.attempt_step_origin ha with ⟨a₀, ha₀, -, rfl⟩ | hbegins <;>
      rcases hw.toSound.attempt_step_origin hb with ⟨b₀, hb₀, -, rfl⟩ | hbegins'
    · simp only [prepared_attemptAfter] at hid
      rw [hclaims.exclusive a₀ ha₀ b₀ hb₀ (isCurrent_of_attemptAfter hcurrent_a)
        (isCurrent_of_attemptAfter hcurrent_b) hid]
    · simp only [prepared_attemptAfter] at hid
      exact absurd hid.symm (hw.deliveryId_ne_of_begins hclaims ha₀
        (isCurrent_of_attemptAfter hcurrent_a) hbegins')
    · simp only [prepared_attemptAfter] at hid
      exact absurd hid (hw.deliveryId_ne_of_begins hclaims hb₀
        (isCurrent_of_attemptAfter hcurrent_b) hbegins)
    · exact begins_unique ha hb hbegins hbegins'
  · intro a ha hcurrent d' hd'
    rcases hw.toSound.attempt_step_origin ha with ⟨a₀, ha₀, -, rfl⟩ | hbegins
    · rw [prepared_attemptAfter] at hd'
      exact hw.stands_step hclaims hlate ha₀ hcurrent hd'
    · rw [(hw.toSound.begins_pending hbegins).2 d' hd']
      decide

/-! ### Runs -/

/-- **Along a run the claims are exclusive exactly when no late completion resets a send.** -/
theorem exclusive_claims_iff_no_late_reset (parser : ArchiveParser) (settings : Settings)
    (archive : ArchiveTables) (events : List Event) :
    Transition.Always (World.step parser) ExclusiveClaims (initial settings archive) events ↔
      Transition.Along (World.step parser) NoLateReset (initial settings archive) events :=
  Transition.always_iff_along (J := Claimed) (fun _ event hw _ _ => hw.step event)
    (fun _ event hw hclaims => hw.exclusiveClaims_step hclaims event)
    (initial_claimed settings archive) (initial_exclusiveClaims settings archive) events

end Step

section Counterexample

attribute [local instance] UnicodeData.asciiArabic

/-- The first attempt outlasts a stale recovery and fails while the second one is copying. -/
def lateReset : List Event :=
  earning ++ [.prepare 40 (fun r => some ⟨r.movie, []⟩) (atSecond 30),
    .recoverStaleSends 300 (fun _ => false) (atSecond 1000),
    .prepare 40 (fun r => some ⟨r.movie, []⟩) (atSecond 1001),
    .copyMessage 1 (.refused ⟨.other, "timeout".toList, "timeout".toList⟩),
    .complete 1 (atSecond 1002),
    .prepare 40 (fun r => some ⟨r.movie, []⟩) (atSecond 1003)]

theorem lateReset_shares_claim :
    ¬ ((initial {} oneFile).after {} lateReset).ExclusiveClaims := by
  intro hclaims
  have hshared : ∃ a b, ((initial {} oneFile).after {} lateReset).attempts.find? 2 = some a ∧
      ((initial {} oneFile).after {} lateReset).attempts.find? 3 = some b ∧ b ≠ a ∧
        a.isCurrent ∧ b.isCurrent ∧ b.prepared.deliveryId = a.prepared.deliveryId :=
    ⟨_, _, rfl, rfl, by decide +kernel⟩
  obtain ⟨a, b, ha, hb, hne, hcurrent_a, hcurrent_b, hid⟩ := hshared
  exact hne (hclaims.exclusive a (KeyedTable.mem_of_find? ha) b (KeyedTable.mem_of_find? hb)
    hcurrent_a hcurrent_b hid)

end Counterexample

end World
end CineGate
