/-
**The answers of the endpoints are true, and stay true.**

A mini app believes what it is told: the film has been sent, the entitlement is kept, the claim is
in.  A handler answers from what its own transactions have seen, while other handlers, the workers
and the bot go on.  Its answer holds all the same, of the session that the claim has named, in every
state that comes after.  A request that is turned away has changed nothing.

* `World.SentFor` — a film has been sent for a session, as a message of Telegram's;
* `RewardResponse.Holds` — what an answer says of a session;
* `RewardRequest.Reports` — what the point of a handler says of the system;
* `WebWorld.answers_stay_true`, `WebWorld.refused_requests_leave_no_trace` — the theorems.
-/

import CineGate.PaidFilms

set_option relaxedAutoImplicit false
set_option autoImplicit false

namespace CineGate

/-! ### Sent films -/

namespace World

variable {w : World}

/-- A film has been sent for the session, as the message. -/
def SentFor (w : World) (sessionId messageId : ℕ) : Prop :=
  ∃ a ∈ w.attempts, a.sessionId = sessionId ∧ a.phase = .finalized messageId

/-- The ledger, and every delivery that has been sent has its message. -/
structure Copies (w : World) : Prop extends w.Ledger where
  sent : ∀ d ∈ w.db.deliveries, d.isSent → d.telegramMessageId.isSome

theorem sessionId_attemptAfter (w : World) (event : Event) (a : SendAttempt) :
    (w.attemptAfter event a).sessionId = a.sessionId := by
  unfold attemptAfter
  split
  · split <;> rfl
  · split
    · split <;> rfl
    · rfl
  · split <;> rfl
  · rfl

/-- Attempts on one delivery are of one session. -/
theorem Sound.sessionId_eq (hw : w.Sound) {a : SendAttempt} (ha : a ∈ w.attempts) {d : Delivery}
    (hd : d ∈ w.db.deliveries) (hid : a.prepared.deliveryId = d.id) :
    a.sessionId = d.rewardSessionId := by
  obtain ⟨r, d', he, -, hid'⟩ := hw.attempts a ha
  obtain ⟨hd', hsession⟩ := Db.delivery_mem he rfl
  rw [w.db.deliveries.ext_key hd hd' (hid.symm.trans hid'.symm), hsession]

/-- The message that a delivery records has been sent for its session. -/
theorem Ledger.sentFor (hw : w.Ledger) {d : Delivery} (hd : d ∈ w.db.deliveries) {messageId : ℕ}
    (h : d.telegramMessageId = some messageId) : w.SentFor d.rewardSessionId messageId := by
  obtain ⟨a, ha, hid, hphase⟩ := hw.recorded d hd messageId h
  exact ⟨a, ha, hw.toSound.sessionId_eq ha hd hid, hphase⟩

theorem initial_copies (settings : Settings) (archive : ArchiveTables) :
    (initial settings archive).Copies :=
  ⟨initial_ledger settings archive, by rintro d ⟨⟩⟩

/-- A delivery that has been sent keeps a message. -/
theorem DeliveryStep.isSome_telegramMessageId {event : Event} {d d' : Delivery}
    (h : DeliveryStep w event d d') (hd : d.isSent → d.telegramMessageId.isSome)
    (hd' : d'.isSent) : d'.telegramMessageId.isSome := by
  rcases h.telegramMessageId with hsame | ⟨-, -, -, messageId, -, -, -, -, -, hmessage⟩
  · rw [hsame]
    cases h with
    | idle => exact hd hd'
    | claimed => simp [Delivery.isSent, Delivery.claimSend] at hd'
    | finalized => exact hsame ▸ rfl
    | reset => simp [Delivery.isSent, Delivery.releaseSend] at hd'
    | sendRecovered => simp [Delivery.isSent, Delivery.releaseSend] at hd'
    | deletionRecovered staleSeconds clock he hdeleting =>
        exact hd (by simp [Delivery.isSent, hdeleting])
    | deletionClaimed limit locked clock he hdue =>
        rw [telegramMessageId_of_isDue (Db.mem_dueDeletions hdue).2]
        rfl
    | reported taskId clock task answer he ht ha hopen hid hdeleting =>
        exact hd (by simp [Delivery.isSent, hdeleting])
  · rw [hmessage]
    rfl

section Step

variable [UnicodeData] {parser : ArchiveParser}

variable (parser) in
/-- What has been sent stays sent. -/
theorem Sound.sentFor_step (hw : w.Sound) (event : Event) {sessionId messageId : ℕ}
    (h : w.SentFor sessionId messageId) :
    (World.step parser w event).SentFor sessionId messageId := by
  obtain ⟨a, ha, hsession, hphase⟩ := h
  exact ⟨w.attemptAfter event a, KeyedTable.mem_of_find?
    (hw.find?_attempts_step parser event (KeyedTable.find?_of_mem ha)),
    by rw [sessionId_attemptAfter, hsession], finalized_attemptAfter hphase⟩

/-- **Every event keeps the messages of the films that have been sent.** -/
theorem Copies.step (hw : w.Copies) (event : Event) : (World.step parser w event).Copies := by
  refine ⟨hw.toLedger.step event, fun d' hd' hsent => ?_⟩
  cases hfind : w.db.deliveries.find? d'.id with
  | none =>
      obtain ⟨-, -, -, -, hsending, -⟩ :=
        hw.toSound.delivery_origin (KeyedTable.find?_of_mem hd') hfind
      simp [Delivery.isSent, hsending] at hsent
  | some d =>
      obtain ⟨hd, hid⟩ := KeyedTable.find?_eq_some.1 hfind
      have hafter := hw.toSound.find?_deliveries_step parser event hfind
      obtain rfl := Option.some.inj ((KeyedTable.find?_of_mem hd').symm.trans hafter)
      exact (deliveryStep hd).isSome_telegramMessageId (hw.sent d hd) hsent

end Step
end World

/-! ### What a delivery answers -/

/-- The delivery of a session that is ready is pending, so it is claimed. -/
theorem claimDelivery_ne_result {db db' : Db} (hdb : db.Sound) {r : RewardSession}
    (hr : db.rewardSessions.find? r.id = some r) (hready : r.isReady) {row : MovieQuality}
    {caption : RenderedTemplate} {deleteSeconds : ℤ} {now : Instant} {result : DeliveryResult} :
    claimDelivery db r row caption deleteSeconds now ≠ .ok (db', .inr result) := by
  intro h
  have hpending : (db.ensureDelivery r row).2.status = .pending :=
    hdb.ensureDelivery_pending hr hready
  unfold claimDelivery at h
  dsimp only at h
  rw [if_neg (by simp [hpending]), if_neg (by simp [hpending])] at h
  unfold Db.commitDelivery at h
  split at h <;> cases h

/-- **A result without a claim**: the session is rewarded, and one that is told to be delivered
is. -/
theorem prepare_result {db db' : Db} (hdb : db.Sound) {render : CaptionRenderer} {sessionId : ℕ}
    {clock : Clock} {result : DeliveryResult}
    (h : prepare db render sessionId clock = .ok (db', .inr result)) :
    ∃ r, db.rewardSessions.find? sessionId = some r ∧ r.isRewarded ∧
      (result.status = .delivered → r.status = .delivered ∧
        ∃ d, db.deliveryOf? r.id = some d ∧ result.telegramMessageId = d.telegramMessageId) := by
  unfold prepare at h
  dsimp only at h
  split at h
  · cases h
  · next r hr =>
      refine ⟨r, hr, ?_⟩
      split at h
      · next hdelivered =>
          split at h
          · cases h
          · next d hd =>
              cases h
              exact ⟨RewardSession.isRewarded_iff.2 (by simp [hdelivered]),
                fun _ => ⟨hdelivered, d, hd, rfl⟩⟩
      · split at h
        · next hdelivering =>
            cases h
            exact ⟨RewardSession.isRewarded_iff.2 (by simp [hdelivering]), by simp⟩
        · split at h
          · cases h
          · next hnotReady =>
              have hready : r.isReady := by
                simp only [Bool.and_eq_true, decide_eq_true_eq, not_and,
                  Decidable.not_not] at hnotReady
                rw [RewardSession.isReady_iff]
                by_cases hrewarded : r.status = .rewarded
                · exact .inl hrewarded
                · exact .inr (hnotReady hrewarded)
              refine ⟨RewardSession.isRewarded_of_isReady hready, ?_⟩
              split at h
              · unfold Db.commitDelivery at h
                split at h
                · cases h
                  simp
                · cases h
              · split at h
                · split at h
                  · cases h
                  · have hid : r.id = sessionId := KeyedTable.key_of_find? hr
                    -- a ready session is claimed, and what is claimed answers nothing yet
                    exact absurd h (claimDelivery_ne_result hdb (hid ▸ hr) hready)
                · cases h

/-- `_finalize_sent` answers with the message of a delivery that is sent, or it sends the
session. -/
theorem finalizeSent_result {db db' : Db} {sessionId deliveryId messageId : ℕ} {deleteSeconds : ℤ}
    {clock : Clock} {result : DeliveryResult}
    (h : finalizeSent db sessionId deliveryId messageId deleteSeconds clock = .ok (db', result)) :
    result.status = .delivered ∧
      ((db' = db ∧ ∃ d ∈ db.deliveries, d.id = deliveryId ∧ d.status = .sent ∧
          result.telegramMessageId = d.telegramMessageId) ∨
        ∃ r, db'.rewardSessions.find? sessionId = some r ∧ r.status = .delivered ∧
          result.telegramMessageId = some messageId) := by
  unfold finalizeSent at h
  dsimp only at h
  split at h
  · next r d hr hd =>
      obtain ⟨hd, hid⟩ := KeyedTable.find?_eq_some.1 hd
      split at h
      · next hsent =>
          cases h
          exact ⟨rfl, .inl ⟨rfl, d, hd, hid, hsent, rfl⟩⟩
      · unfold Db.commitDelivery at h
        split at h
        · cases h
          refine ⟨rfl, .inr ⟨r.finalizeSent clock.utcnow, ?_, rfl, rfl⟩⟩
          have hfind := KeyedTable.find?_modifyAt_self db.rewardSessions sessionId
            (RewardSession.finalizeSent clock.utcnow) fun _ => rfl
          rw [hr] at hfind
          exact hfind
        · cases h
  · cases h

namespace World.Copies

variable {w : World} (hw : w.Copies)

include hw

/-- A session that has been told to be delivered has been sent a film. -/
theorem sentFor_of_delivered {r : RewardSession} {d : Delivery}
    (he : w.db.entitlement? r.id = some ⟨r, some d⟩) (hdelivered : r.status = .delivered) :
    ∃ messageId, d.telegramMessageId = some messageId ∧ w.SentFor r.id messageId := by
  obtain ⟨hd, hsession⟩ := Db.delivery_mem he rfl
  have hsent : d.isSent :=
    (RewardSession.deliveryFits_some.1 (hw.db.wellFormed _ _ he).delivery).2.1 hdelivered
  obtain ⟨messageId, hmessage⟩ := Option.isSome_iff_exists.1 (hw.sent d hd hsent)
  exact ⟨messageId, hmessage, hsession ▸ hw.toLedger.sentFor hd hmessage⟩

/-- **A result without a claim.** -/
theorem prepare_result {db : Db} {render : CaptionRenderer} {sessionId : ℕ} {clock : Clock}
    {result : DeliveryResult}
    (h : CineGate.prepare w.db render sessionId clock = .ok (db, .inr result)) :
    ∃ r, w.db.rewardSessions.find? sessionId = some r ∧ r.isRewarded ∧
      (result.status = .delivered → r.status = .delivered ∧
        ∃ messageId, result.telegramMessageId = some messageId ∧ w.SentFor r.id messageId) := by
  obtain ⟨r, hr, hrewarded, hresult⟩ := CineGate.prepare_result hw.db h
  refine ⟨r, hr, hrewarded, fun hstatus => ?_⟩
  obtain ⟨hdelivered, d, hd, hmessage⟩ := hresult hstatus
  have he : w.db.entitlement? r.id = some ⟨r, some d⟩ :=
    Db.entitlement?_eq_some.2 ⟨(KeyedTable.key_of_find? hr) ▸ hr, hd⟩
  obtain ⟨messageId, hid, hsent⟩ := hw.sentFor_of_delivered he hdelivered
  exact ⟨hdelivered, messageId, hmessage.trans hid, hsent⟩

/-- **A film that has been copied**: its session is delivered, and the answer names its message. -/
theorem complete_result [UnicodeData] (parser : ArchiveParser) {attemptId : ℕ} {a : SendAttempt}
    {messageId : ℕ} {clock : Clock} {db : Db} {result : DeliveryResult}
    (ha : w.attempts.find? attemptId = some a) (hcopied : a.phase = .copied messageId)
    (h : finalizeSent w.db a.sessionId a.prepared.deliveryId messageId a.prepared.deleteSeconds
      clock = .ok (db, result)) :
    result.status = .delivered ∧
      ∃ r, (World.step parser w (.complete attemptId clock)).db.rewardSessions.find? a.sessionId =
        some r ∧
        r.status = .delivered ∧ ∃ messageId, result.telegramMessageId = some messageId ∧
          (World.step parser w (.complete attemptId clock)).SentFor a.sessionId messageId := by
  obtain ⟨hmem, rfl⟩ := KeyedTable.find?_eq_some.1 ha
  have hstep : (World.step parser w (.complete a.id clock)).db = db := by
    simp only [World.step, World.complete, ha, hcopied, h]
  obtain ⟨hstatus, ⟨rfl, d, hd, hid, hsent, hmessage⟩ | ⟨r, hr, hdelivered, hmessage⟩⟩ :=
    finalizeSent_result h
  · -- another attempt on the delivery has been completed before
    obtain ⟨r, d', he, -, hid'⟩ := hw.attempts a hmem
    obtain rfl := w.db.deliveries.ext_key (Db.delivery_mem he rfl).1 hd (hid'.trans hid.symm)
    have hfits := RewardSession.deliveryFits_some.1 (hw.db.wellFormed _ _ he).delivery
    have hdelivered : r.status = .delivered := hfits.2.2 (by simp [Delivery.isSent, hsent])
    have hr := (Db.entitlement?_eq_some.1 he).1
    have hsession : r.id = a.sessionId := KeyedTable.key_of_find? hr
    obtain ⟨messageId, hrecorded, hfor⟩ := hw.sentFor_of_delivered (hsession ▸ he) hdelivered
    exact ⟨hstatus, r, hstep.symm ▸ hr, hdelivered, messageId, hmessage.trans hrecorded,
      hw.toSound.sentFor_step parser _ (hsession ▸ hfor)⟩
  · refine ⟨hstatus, r, hstep.symm ▸ hr, hdelivered, messageId, hmessage, _, KeyedTable.mem_of_find?
      (hw.toSound.find?_attempts_step parser _ ha), sessionId_attemptAfter w _ a,
      attemptAfter_complete hcopied⟩

end World.Copies

/-! ### What an answer says -/

/-- The answers that tell the mini app something of the session. -/
def RewardResponse.isPromise : RewardResponse → Bool
  | .result .. | .unavailable | .waitingProvider => true
  | _ => false

/-- What an answer says of the session of a claim: the film has been sent, as the message; the
entitlement is kept; the claim is in. -/
def RewardResponse.Holds (w : World) (r : RewardSession) : RewardResponse → Prop
  | .result .delivered telegramMessageId => r.status = .delivered ∧
      ∃ messageId, telegramMessageId = some messageId ∧ w.SentFor r.id messageId
  | .result _ _ | .unavailable => r.isRewarded
  | .waitingProvider => r.clientCompletedAt.isSome
  | _ => True

/-- What an answer says goes on to hold with the session. -/
theorem RewardResponse.Holds.continues {w w' : World} {r r' : RewardSession}
    {response : RewardResponse}
    (h : response.Holds w r) (hid : r'.id = r.id) (hcontinues : RewardSession.Continues r r')
    (hsent : ∀ messageId, w.SentFor r.id messageId → w'.SentFor r.id messageId) :
    response.Holds w' r' := by
  cases response with
  | result status telegramMessageId =>
      cases status with
      | delivered =>
          obtain ⟨hdelivered, messageId, hmessage, hfor⟩ := h
          exact ⟨hcontinues.delivered hdelivered, messageId, hmessage, hid ▸ hsent messageId hfor⟩
      | _ => exact hcontinues.rewarded h
  | unavailable => exact hcontinues.rewarded h
  | waitingProvider =>
      have h : r.clientCompletedAt.isSome := h
      show r'.clientCompletedAt.isSome
      rw [hcontinues.clientCompletedAt h]
      exact h
  | _ => trivial

/-- The session of a request goes by the user that the handler has found. -/
structure RewardRequest.Names (w : WebWorld) (q : RewardRequest) (r : RewardSession) : Prop where
  session : w.system.db.rewardSessions.find? r.id = some r
  marked : q.marked = some r.id
  claim : ∀ sessionId initData, q.call = .claim sessionId initData →
    sessionId = r.id ∧ q.user = some r.telegramUserId ∧ r.clientCompletedAt.isSome

/-- What the point of a handler says of the system. -/
structure RewardRequest.Reports (w : WebWorld) (q : RewardRequest) : Prop where
  names : ∀ sessionId, q.marked = some sessionId → ∃ r, r.id = sessionId ∧ q.Names w r
  delivering : ∀ sessionId, q.phase = .delivering sessionId → q.marked = some sessionId
  sending : ∀ attemptId, q.phase = .sending attemptId →
    ∃ a, w.system.attempts.find? attemptId = some a ∧ q.marked = some a.sessionId
  unrefused : ∀ response, q.phase = .answered response → q.marked.isSome →
    response.isRefusal = false
  holds : ∀ response, q.phase = .answered response → response.isPromise →
    (∃ sessionId initData, q.call = .claim sessionId initData) →
      ∃ r, q.Names w r ∧ response.Holds w.system r

namespace WebWorld

variable [UnicodeData] {parser : ArchiveParser} {w : WebWorld}

variable (parser) in
theorem sentFor_step (hw : w.system.Sound) (event : WebEvent) {sessionId messageId : ℕ}
    (h : w.system.SentFor sessionId messageId) :
    (w.step parser event).system.SentFor sessionId messageId := by
  rcases system_step parser w event with hsystem | ⟨e, -, hsystem⟩
  · rw [hsystem]
    exact h
  · rw [hsystem]
    exact hw.sentFor_step parser e h

variable (parser) in
theorem find?_attempts_step (hw : w.system.Sound) (event : WebEvent) {attemptId : ℕ}
    {a : SendAttempt} (ha : w.system.attempts.find? attemptId = some a) :
    ∃ a', (w.step parser event).system.attempts.find? attemptId = some a' ∧
      a'.sessionId = a.sessionId := by
  rcases system_step parser w event with hsystem | ⟨e, -, hsystem⟩
  · rw [hsystem]
    exact ⟨a, ha, rfl⟩
  · rw [hsystem]
    exact ⟨_, hw.find?_attempts_step parser e ha, World.sessionId_attemptAfter w.system e a⟩

variable (parser) in
theorem copies_step (hw : w.system.Copies) (event : WebEvent) :
    (w.step parser event).system.Copies := by
  rcases system_step parser w event with hsystem | ⟨e, -, hsystem⟩
  · rw [hsystem]
    exact hw
  · rw [hsystem]
    exact hw.step e

end WebWorld

namespace RewardRequest

variable {w : WebWorld} {q : RewardRequest}

section Later

variable [UnicodeData] {parser : ArchiveParser}

variable (parser) in
/-- The session of a request goes on. -/
theorem Names.later (hw : w.system.Sound) (event : WebEvent) {r : RewardSession} (h : q.Names w r) :
    ∃ r', q.Names (w.step parser event) r' ∧ r'.id = r.id ∧ RewardSession.Continues r r' := by
  obtain ⟨r', hr', hcontinues⟩ := WebWorld.continues_step parser hw event h.session
  have hid : r'.id = r.id := KeyedTable.key_of_find? hr'
  refine ⟨r', ⟨hid ▸ hr', hid ▸ h.marked, fun sessionId initData hcall => ?_⟩, hid, hcontinues⟩
  obtain ⟨hsession, huser, hclient⟩ := h.claim sessionId initData hcall
  exact ⟨hsession.trans hid.symm, hcontinues.telegramUserId ▸ huser,
    (hcontinues.clientCompletedAt hclient) ▸ hclient⟩

variable (parser) in
/-- **What the point of a handler says** holds after every event. -/
theorem Reports.later (hw : w.system.Sound) (event : WebEvent) (h : q.Reports w) :
    q.Reports (w.step parser event) := by
  refine ⟨fun sessionId hmarked => ?_, h.delivering, fun attemptId hphase => ?_, h.unrefused,
    fun response hphase hpromise hclaim => ?_⟩
  · obtain ⟨r, rfl, hnames⟩ := h.names sessionId hmarked
    obtain ⟨r', hnames', hid, -⟩ := hnames.later parser hw event
    exact ⟨r', hid, hnames'⟩
  · obtain ⟨a, ha, hmarked⟩ := h.sending attemptId hphase
    obtain ⟨a', ha', hsession⟩ := WebWorld.find?_attempts_step parser hw event ha
    exact ⟨a', ha', hsession ▸ hmarked⟩
  · obtain ⟨r, hnames, hholds⟩ := h.holds response hphase hpromise hclaim
    obtain ⟨r', hnames', hid, hcontinues⟩ := hnames.later parser hw event
    exact ⟨r', hnames', hholds.continues hid hcontinues fun _ =>
      WebWorld.sentFor_step parser hw event⟩

end Later

/-- A request that comes in says nothing yet. -/
theorem reports_of_arrives {call : RewardCall} {phase : RewardPhase} {id : ℕ}
    (h : Arrives w.settings call phase) {w' : WebWorld} : Reports w' { id, call, phase } := by
  cases h with
  | answered call response h =>
      refine ⟨by simp, by simp, by simp, by simp, fun response' hphase hpromise => ?_⟩
      cases hphase
      rcases h with h | rfl
      · cases response <;> simp_all [RewardResponse.isRefusal, RewardResponse.isPromise]
      · cases hpromise
  | _ => exact ⟨by simp, by simp, by simp, by simp, by simp⟩

/-- A handler answers. -/
theorem Reports.answer (h : q.Reports w) {response : RewardResponse}
    (hrefused : q.marked.isSome → response.isRefusal = false)
    (hholds : response.isPromise → (∃ sessionId initData, q.call = .claim sessionId initData) →
      ∃ r, q.Names w r ∧ response.Holds w.system r) :
    Reports w { q with phase := .answered response } := by
  refine ⟨fun sessionId hmarked => ?_, by simp, by simp, fun response' hphase => ?_,
    fun response' hphase hpromise hclaim => ?_⟩
  · obtain ⟨r, hid, hnames⟩ := h.names sessionId hmarked
    exact ⟨r, hid, hnames.session, hnames.marked, hnames.claim⟩
  · cases hphase
    exact hrefused
  · cases hphase
    obtain ⟨r, hnames, hresponse⟩ := hholds hpromise hclaim
    exact ⟨r, ⟨hnames.session, hnames.marked, hnames.claim⟩, hresponse⟩

/-- An answer that tells nothing of the session, from a handler that has recorded nothing or that
turns nothing away. -/
theorem Reports.answer_of_not_promise (h : q.Reports w) {response : RewardResponse}
    (hpromise : response.isPromise = false)
    (hrefused : q.marked = none ∨ response.isRefusal = false) :
    Reports w { q with phase := .answered response } := by
  refine h.answer (fun hmarked => ?_) fun hp => ?_
  · rcases hrefused with hnone | hrefused
    · rw [hnone] at hmarked
      cases hmarked
    · exact hrefused
  · rw [hpromise] at hp
    cases hp

/-- A handler whose request names a rewarded session answers a result that is not delivered. -/
theorem Reports.respond (h : q.Reports w) {r : RewardSession} (hnames : q.Names w r)
    (hrewarded : r.isRewarded) {result : DeliveryResult}
    (hdelivered : result.status = .delivered → r.status = .delivered ∧
      ∃ messageId, result.telegramMessageId = some messageId ∧ w.system.SentFor r.id messageId) :
    Reports w { q with phase := .answered (q.respond result) } := by
  refine h.answer (fun _ => ?_) fun _ _ => ⟨r, hnames, ?_⟩
  · unfold RewardRequest.respond
    split
    · rfl
    · split <;> rfl
  · unfold RewardRequest.respond
    split
    · trivial
    · split
      · exact hrewarded
      · cases hstatus : result.status with
        | delivered => exact hdelivered hstatus
        | _ => exact hrewarded

/-- A handler that has recorded a proof. -/
theorem Names.reports {view : RewardSessionView} {waiting : RewardResponse} {r : RewardSession}
    (hnames : (q.recorded view waiting).Names w r) (hid : r.id = view.id)
    (hwaiting : waiting = .noContent ∨ waiting = .waitingProvider) :
    (q.recorded view waiting).Reports w := by
  refine ⟨fun sessionId hmarked => ⟨r, ?_, hnames⟩, fun sessionId hphase => ?_,
    fun attemptId hphase => ?_, fun response hphase _ => ?_,
    fun response hphase hpromise hclaim => ?_⟩
  · exact hid.trans (Option.some.inj hmarked)
  · simp only [recorded] at hphase
    split at hphase
    · cases hphase
      rfl
    · cases hphase
  · simp only [recorded] at hphase
    split at hphase <;> cases hphase
  · simp only [recorded] at hphase
    split at hphase
    · cases hphase
    · cases hphase
      rcases hwaiting with rfl | rfl <;> rfl
  · simp only [recorded] at hphase
    split at hphase
    · cases hphase
    · cases hphase
      obtain ⟨sessionId, initData, hcall⟩ := hclaim
      rcases hwaiting with rfl | rfl
      · cases hpromise
      · exact ⟨r, hnames, (hnames.claim sessionId initData hcall).2.2⟩

section Step

variable [UnicodeData] {parser : ArchiveParser}

variable (parser) in
/-- A claim that has been recorded names its session. -/
theorem names_claimed (hq : q ∈ w.requests) (hopen : q.dropped = false) (clock : Clock)
    (render : CaptionRenderer) {sessionId : ℕ} {initData : Str} {telegramUserId : ℤ} {db : Db}
    {view : RewardSessionView} (hphase : q.phase = .marking)
    (hcall : q.call = .claim sessionId initData) (huser : q.user = some telegramUserId)
    (h : markClientCompleted w.system.db sessionId telegramUserId clock = .ok (db, view)) :
    ∃ r, r.id = view.id ∧
      (q.recorded view .waitingProvider).Names (w.step parser (.transact q.id clock render)) r := by
  have hemits : w.emits (.transact q.id clock render) =
      some (.markClientCompleted sessionId telegramUserId clock) := by
    rw [WebWorld.emits_transact hq hopen]
    simp [event?, hphase, hcall, huser]
  have hsystem := WebWorld.system_step_of_emits parser hemits
  obtain ⟨r, hr, rfl, rfl, rfl, rfl⟩ := markClientCompleted_eq_ok h
  have hid : (r.markClient clock.utcnow).id = r.id := RewardSession.id_markClient _ r
  refine ⟨r.markClient clock.utcnow, rfl, ?_, rfl, fun sessionId' initData' hcall' => ?_⟩
  · simp only [hsystem, World.step, World.commit, h, Db.updateReward, hid,
      KeyedTable.find?_modifyAt_self, KeyedTable.find?_of_mem hr, Option.map_some]
  · obtain ⟨rfl, rfl⟩ := RewardCall.claim.inj (hcall.symm.trans hcall')
    have hsame : (r.markClient clock.utcnow).telegramUserId = r.telegramUserId :=
      World.Proof.telegramUserId_mark .client _ r
    refine ⟨hid.symm, huser.trans (congrArg some hsame.symm), ?_⟩
    cases hclient : r.clientCompletedAt <;> simp [RewardSession.markClient, hclient]

variable (parser) in
/-- A callback that has been recorded names its session. -/
theorem names_confirmed (hq : q ∈ w.requests) (hopen : q.dropped = false) (clock : Clock)
    (render : CaptionRenderer) {secret : Str} {telegramUserId : ℤ} {db : Db}
    {view : RewardSessionView} (hphase : q.phase = .confirming)
    (hcall : q.call = .callback secret telegramUserId)
    (h : markProviderConfirmed w.system.db telegramUserId clock = .ok (db, some view)) :
    ∃ r, r.id = view.id ∧
      (q.recorded view .noContent).Names (w.step parser (.transact q.id clock render)) r := by
  have hemits : w.emits (.transact q.id clock render) =
      some (.markProviderConfirmed telegramUserId clock) := by
    rw [WebWorld.emits_transact hq hopen]
    simp [event?, hphase, hcall]
  have hsystem := WebWorld.system_step_of_emits parser hemits
  rcases markProviderConfirmed_eq_ok h with ⟨hnone, -⟩ | ⟨r, hr, huser, rfl, hview⟩
  · cases hnone
  · cases hview
    have hid : (r.markProvider clock.utcnow).id = r.id := RewardSession.id_markProvider _ r
    refine ⟨r.markProvider clock.utcnow, rfl, ?_, rfl, fun sessionId' initData' hcall' => ?_⟩
    · simp only [hsystem, World.step, World.commit, h, Db.updateReward, hid,
        KeyedTable.find?_modifyAt_self, KeyedTable.find?_of_mem hr, Option.map_some]
    · cases hcall.symm.trans hcall'

variable (parser) in
/-- A delivery that has been prepared is in the hands of its attempt. -/
theorem Reports.prepared (hw : w.system.Sound) (hq : q ∈ w.requests) (hopen : q.dropped = false)
    (h : q.Reports w) (clock : Clock) (render : CaptionRenderer) {sessionId : ℕ} {db : Db}
    {p : PreparedDelivery} (hphase : q.phase = .delivering sessionId)
    (hprepare : prepare w.system.db render sessionId clock = .ok (db, .inl p)) :
    Reports (w.step parser (.transact q.id clock render))
      { q with phase := .sending w.system.attempts.freshKey } := by
  have hlater := h.later parser hw (.transact q.id clock render)
  have hemits : w.emits (.transact q.id clock render) =
      some (.prepare sessionId render clock) := by
    rw [WebWorld.emits_transact hq hopen]
    simp [event?, hphase]
  have hsystem := WebWorld.system_step_of_emits parser hemits
  refine ⟨fun sessionId hmarked => ?_, by simp, fun attemptId hsending => ?_, by simp, by simp⟩
  · obtain ⟨r, hid, hnames⟩ := hlater.names sessionId hmarked
    exact ⟨r, hid, hnames.session, hnames.marked, hnames.claim⟩
  · cases hsending
    rw [hsystem]
    simp only [World.step, World.prepare, hprepare]
    exact ⟨_, KeyedTable.find?_insert_self (KeyedTable.find?_freshKey _),
      h.delivering sessionId hphase⟩

variable (parser) in
/-- A delivery that comes to its end before the copy is answered from the session. -/
theorem Reports.settled (hw : w.system.Copies) (h : q.Reports w) (clock : Clock)
    (render : CaptionRenderer) {sessionId : ℕ} {db : Db} {result : DeliveryResult}
    (hphase : q.phase = .delivering sessionId)
    (hprepare : prepare w.system.db render sessionId clock = .ok (db, .inr result)) :
    Reports (w.step parser (.transact q.id clock render))
      { q with phase := .answered (q.respond result) } := by
  have hlater := h.later parser hw.toSound (.transact q.id clock render)
  obtain ⟨r, hr, hrewarded, hdelivered⟩ := hw.prepare_result hprepare
  obtain ⟨r₀, rfl, hnames⟩ := h.names sessionId (h.delivering sessionId hphase)
  obtain rfl : r₀ = r := Option.some.inj (hnames.session.symm.trans hr)
  obtain ⟨r', hnames', hid, hcontinues⟩ :=
    hnames.later parser hw.toSound (.transact q.id clock render)
  refine hlater.respond hnames' (hcontinues.rewarded hrewarded) fun hstatus => ?_
  obtain ⟨hdone, messageId, hmessage, hsent⟩ := hdelivered hstatus
  exact ⟨hcontinues.delivered hdone, messageId, hmessage,
    hid ▸ WebWorld.sentFor_step parser hw.toSound _ hsent⟩

variable (parser) in
/-- A copy that has been recorded is the one that the handler answers. -/
theorem Reports.sent (hw : w.system.Copies) (hq : q ∈ w.requests) (hopen : q.dropped = false)
    (h : q.Reports w) (clock : Clock) (render : CaptionRenderer) {attemptId messageId : ℕ}
    {attempt : SendAttempt} {db : Db} {result : DeliveryResult}
    (hphase : q.phase = .sending attemptId)
    (hattempt : w.system.attempts.find? attemptId = some attempt)
    (hcopied : attempt.phase = .copied messageId)
    (hfinalize : finalizeSent w.system.db attempt.sessionId attempt.prepared.deliveryId messageId
      attempt.prepared.deleteSeconds clock = .ok (db, result)) :
    Reports (w.step parser (.transact q.id clock render))
      { q with phase := .answered (q.respond result) } := by
  have hlater := h.later parser hw.toSound (.transact q.id clock render)
  have hemits : w.emits (.transact q.id clock render) = some (.complete attemptId clock) := by
    rw [WebWorld.emits_transact hq hopen]
    simp [event?, hphase]
  have hsystem := WebWorld.system_step_of_emits parser hemits
  obtain ⟨a, ha, hmarked⟩ := h.sending attemptId hphase
  obtain rfl : a = attempt := Option.some.inj (ha.symm.trans hattempt)
  obtain ⟨-, r, hr, hdelivered, messageId', hmessage, hsent⟩ :=
    hw.complete_result parser hattempt hcopied hfinalize
  rw [← hsystem] at hr hsent
  obtain ⟨r', hid, hnames⟩ := hlater.names a.sessionId hmarked
  obtain rfl : r' = r := Option.some.inj ((hid ▸ hnames.session).symm.trans hr)
  exact hlater.respond hnames (RewardSession.isRewarded_iff.2 (by simp [hdelivered]))
    fun _ => ⟨hdelivered, messageId', hmessage, hid ▸ hsent⟩

variable (parser) in
/-- A copy that was refused leaves a session that is still rewarded. -/
theorem Reports.notSent (hw : w.system.Sound) (h : q.Reports w) (clock : Clock)
    (render : CaptionRenderer) {attemptId : ℕ} {attempt : SendAttempt} {error : TelegramError}
    (hphase : q.phase = .sending attemptId)
    (hattempt : w.system.attempts.find? attemptId = some attempt) :
    Reports (w.step parser (.transact q.id clock render)) { q with
      phase := .answered (q.respond
        { status := if error.missingSource then .unavailable else .retryable }) } := by
  have hlater := h.later parser hw (.transact q.id clock render)
  obtain ⟨a, ha, hmarked⟩ := h.sending attemptId hphase
  obtain rfl : a = attempt := Option.some.inj (ha.symm.trans hattempt)
  obtain ⟨r, d, he, hrewarded, -⟩ := hw.attempts a (KeyedTable.mem_of_find? ha)
  obtain ⟨r₀, hid, hnames⟩ := h.names a.sessionId hmarked
  obtain rfl : r₀ = r :=
    Option.some.inj ((hid ▸ hnames.session).symm.trans (Db.entitlement?_eq_some.1 he).1)
  obtain ⟨r', hnames', -, hcontinues⟩ := hnames.later parser hw (.transact q.id clock render)
  refine hlater.respond hnames' (hcontinues.rewarded hrewarded) fun hstatus => ?_
  dsimp only at hstatus
  split at hstatus <;> cases hstatus

variable (parser) in
/-- What a transaction of a handler leaves its point to say. -/
theorem Reports.transact (hw : w.system.Copies) (hq : q ∈ w.requests)
    (hhonest : q.Honest w.settings) (hopen : q.dropped = false) (h : q.Reports w) (clock : Clock)
    (render : CaptionRenderer) :
    (q.transact w.system clock render).Reports (w.step parser (.transact q.id clock render)) := by
  have hlater := h.later parser hw.toSound (.transact q.id clock render)
  have htransact := transacts_transact q w.system clock render
  generalize q.transact w.system clock render = q' at htransact ⊢
  cases htransact with
  | idle => exact hlater
  | notClaimed sessionId initData telegramUserId error hphase hcall huser h =>
      refine hlater.answer_of_not_promise ?_ (.inl (hhonest.unmarked (.inr (.inl hphase))))
      cases error <;> rfl
  | claimed sessionId initData telegramUserId db view hphase hcall huser h =>
      obtain ⟨r, hid, hnames⟩ := names_claimed parser hq hopen clock render hphase hcall huser h
      exact hnames.reports hid (.inr rfl)
  | notConfirmed secret userid db hphase hcall h =>
      exact hlater.answer_of_not_promise rfl (.inr rfl)
  | confirmed secret userid db view hphase hcall h =>
      obtain ⟨r, hid, hnames⟩ := names_confirmed parser hq hopen clock render hphase hcall h
      exact hnames.reports hid (.inl rfl)
  | prepared sessionId db p hphase hprepare =>
      exact h.prepared parser hw.toSound hq hopen clock render hphase hprepare
  | settled sessionId db result hphase hprepare =>
      exact h.settled parser hw clock render hphase hprepare
  | sent attemptId attempt messageId db result hphase hattempt hcopied hfinalize =>
      exact h.sent parser hw hq hopen clock render hphase hattempt hcopied hfinalize
  | notSent attemptId attempt error db hphase hattempt hrefused hreset =>
      exact h.notSent parser hw.toSound clock render hphase hattempt
  | failed hphase => exact hlater.answer_of_not_promise rfl (.inr rfl)

variable (parser) in
/-- **Every move keeps what the point of a handler says.** -/
theorem Reports.step (hw : w.system.Copies) {event : WebEvent} {q' : RewardRequest}
    (hq : q ∈ w.requests) (hhonest : q.Honest w.settings) (h : q.Reports w)
    (hstep : RequestStep w event q q') : q'.Reports (w.step parser event) := by
  have hlater := h.later parser hw.toSound event
  cases hstep with
  | idle => exact hlater
  | identified sessionId initData telegramUserId phase hphase hcall hsigned hnext =>
      have hnone : q.marked = none := hhonest.unmarked (.inl hphase)
      rcases hnext with rfl | ⟨retryAfter, rfl⟩
      · exact ⟨by simp [hnone], by simp, by simp, by simp, by simp⟩
      · exact ⟨by simp [hnone], by simp, by simp, by simp [hnone],
          by simp [RewardResponse.isPromise]⟩
  | unidentified response hphase hresponse =>
      have hnone : q.marked = none := hhonest.unmarked (.inl hphase)
      refine hlater.answer_of_not_promise ?_ (.inl hnone)
      rcases hresponse with rfl | rfl <;> rfl
  | failed hopen he => exact hlater.answer_of_not_promise rfl (.inr rfl)
  | dropped hopen he =>
      refine ⟨fun sessionId hmarked => ?_, hlater.delivering, hlater.sending, hlater.unrefused,
        fun response hphase hpromise hclaim => ?_⟩
      · obtain ⟨r, hid, hnames⟩ := hlater.names sessionId hmarked
        exact ⟨r, hid, hnames.session, hnames.marked, hnames.claim⟩
      · obtain ⟨r, hnames, hresponse⟩ := hlater.holds response hphase hpromise hclaim
        exact ⟨r, ⟨hnames.session, hnames.marked, hnames.claim⟩, hresponse⟩
  | transacted clock render hopen he =>
      subst he
      exact h.transact parser hw hq hhonest hopen clock render

end Step
end RewardRequest

/-! ### Runs -/

/-- What holds of the handlers and of the system under them. -/
structure WebWorld.Answering (w : WebWorld) : Prop where
  copies : w.system.Copies
  honest : ∀ q ∈ w.requests, q.Honest w.settings
  reports : ∀ q ∈ w.requests, q.Reports w

/-- The codes of the answers that tell the mini app something of the session. -/
theorem RewardResponse.isPromise_iff (response : RewardResponse) :
    response.isPromise ↔ response.statusCode ∈ [200, 202, 409] := by
  cases response with
  | result status telegramMessageId => cases status <;> simp [isPromise, statusCode]
  | tooManyRequests retryAfter => simp [isPromise, statusCode]
  | _ => decide

/-- Every claim that has been answered 200, 202 or 409 was signed by the user of the session it
names, and what the answer says of the session holds. -/
def WebWorld.Truthful (w : WebWorld) : Prop :=
  ∀ q ∈ w.requests, ∀ response sessionId initData, q.phase = .answered response →
    q.call = .claim sessionId initData → response.statusCode ∈ [200, 202, 409] →
      ∃ r, w.system.db.rewardSessions.find? sessionId = some r ∧
        w.settings.Signed initData r.telegramUserId ∧ response.Holds w.system r

namespace WebWorld

variable {w : WebWorld}

theorem initial_answering (web : WebSettings) (settings : Settings) (archive : ArchiveTables) :
    (initial web settings archive).Answering :=
  ⟨World.initial_copies settings archive, by rintro q ⟨⟩, by rintro q ⟨⟩⟩

theorem Answering.truthful (hw : w.Answering) : w.Truthful := by
  intro q hq response sessionId initData hphase hcall hcode
  obtain ⟨r, hnames, hholds⟩ := (hw.reports q hq).holds response hphase
    (response.isPromise_iff.2 hcode) ⟨sessionId, initData, hcall⟩
  obtain ⟨rfl, huser, -⟩ := hnames.claim sessionId initData hcall
  obtain ⟨sessionId, initData', hcall', hsigned⟩ := (hw.honest q hq).signed _ huser
  obtain ⟨rfl, rfl⟩ := RewardCall.claim.inj (hcall.symm.trans hcall')
  exact ⟨r, hnames.session, hsigned, hholds⟩

section Run

variable [UnicodeData] {parser : ArchiveParser}

/-- **Every event keeps the invariant.** -/
theorem Answering.step (hw : w.Answering) (event : WebEvent) : (w.step parser event).Answering := by
  have hrequests : RequestsStep w event (w.step parser event).requests := requestsStep w event
  have hsettings := settings_step parser w event
  refine ⟨copies_step parser hw.copies event, fun q' hq' => ?_, fun q' hq' => ?_⟩
  · rw [hsettings]
    rcases hrequests.comes q' hq' with ⟨q, hq, hstep⟩ | ⟨call, monotonic, phase, -, harrives, rfl⟩
    · exact (hw.honest q hq).step hstep
    · exact RewardRequest.honest_of_arrives harrives
  · rcases hrequests.comes q' hq' with ⟨q, hq, hstep⟩ | ⟨call, monotonic, phase, -, harrives, rfl⟩
    · exact (hw.reports q hq).step parser hw.copies hq (hw.honest q hq) hstep
    · exact RewardRequest.reports_of_arrives harrives

theorem answering_after (web : WebSettings) (settings : Settings) (archive : ArchiveTables)
    (events : List WebEvent) : ((initial web settings archive).after parser events).Answering :=
  Transition.run_invariant (fun _ event hw => hw.step event)
    (initial_answering web settings archive)
    events

/-- **The answers are true, and stay true.**  After every run, every claim that has ever been
answered 200, 202 or 409 named a session of the user who signed it.  One that was told that the film
is delivered: the session is delivered, and a film has been sent for it as the message of the
answer.  One that was told that it is unavailable, being processed or to be retried: the session is
still rewarded.  One that was told to wait for the network: the user's proof is in. -/
theorem answers_stay_true (parser : ArchiveParser) (web : WebSettings) (settings : Settings)
    (archive : ArchiveTables) (events : List WebEvent) :
    ((initial web settings archive).after parser events).Truthful :=
  (answering_after web settings archive events).truthful

end Run

section Example

attribute [local instance] UnicodeData.asciiArabic

/-- User 5 claims and the network confirms: the callback has the film sent, and the next claim is
told so.  A claim of no session and one that is not signed are turned away. -/
example :
    let web : WebSettings := {
      parseInitData := fun initData => if initData = ['5'] then some ⟨some 5, some 0⟩ else none
      adsgramCallbackSecret := some ['k']
      rewardClaim := {
        limit := 20, windowSeconds := 60, maxKeys := 100
        limit_pos := by decide, windowSeconds_pos := by decide, maxKeys_pos := by decide } }
    let render : CaptionRenderer := fun r => some ⟨r.movie, []⟩
    (((initial web {} World.oneFile).after {} [
      .system (.getOrCreate 5 1 "720p".toList 40 (World.atSecond 0)),
      .receive (.claim 40 ['5']) 0, .identify 1 (World.atSecond 10) 0,
      .transact 1 (World.atSecond 10) render,
      .receive (.callback ['k'] 5) 1, .transact 2 (World.atSecond 20) render,
      .transact 2 (World.atSecond 21) render, .copied 2 (.copied 900),
      .transact 2 (World.atSecond 22) render,
      .receive (.claim 40 ['5']) 2, .identify 3 (World.atSecond 30) 2,
      .transact 3 (World.atSecond 30) render, .transact 3 (World.atSecond 31) render,
      .receive (.claim 41 ['5']) 3, .identify 4 (World.atSecond 40) 3,
      .transact 4 (World.atSecond 40) render,
      .receive (.claim 40 ['6']) 4, .identify 5 (World.atSecond 50) 4]).requests.rows.map
        RewardRequest.phase) =
      [.answered .waitingProvider, .answered .noContent, .answered (.result .delivered (some 900)),
        .answered .sessionNotFound, .answered .invalidIdentity] := by
  decide +kernel

end Example

end WebWorld

/-! ### Requests that are turned away -/

/-- The request has recorded a proof, or it has been answered and not turned away. -/
def RewardRequest.Committed (q : RewardRequest) : Prop :=
  q.marked.isSome ∨ ∃ response, q.phase = .answered response ∧ response.isRefusal = false

theorem RewardRequest.Committed.step {w : WebWorld} {event : WebEvent} {q q' : RewardRequest}
    (h : q.Committed) (hhonest : q.Honest w.settings) (hstep : RequestStep w event q q') :
    q'.Committed := by
  rcases h with h | ⟨response, hphase, hrefused⟩
  · obtain ⟨sessionId, hmarked⟩ := Option.isSome_iff_exists.1 h
    left
    rw [hhonest.marked_step hstep hmarked]
    rfl
  · right
    cases hstep with
    | idle => exact ⟨response, hphase, hrefused⟩
    | identified sessionId initData telegramUserId phase hreading =>
        cases hphase.symm.trans hreading
    | unidentified response hreading => cases hphase.symm.trans hreading
    | transacted clock render hopen he =>
        have hsame : q.transact w.system clock render = q := by simp [transact, hphase]
        rw [hsame]
        exact ⟨response, hphase, hrefused⟩
    | failed hopen he => simp [isAnswered, hphase] at hopen
    | dropped hopen he => simp [isAnswered, hphase] at hopen

namespace WebWorld

variable [UnicodeData] {parser : ArchiveParser} {w : WebWorld}

/-- **A request that has changed the system** has recorded a proof, or it is answered and not turned
away. -/
theorem Answering.committed (hw : w.Answering) {event : WebEvent} {requestId : ℕ}
    (hevent : event.requestId? = some requestId)
    (hne : (w.step parser event).system ≠ w.system) :
    ∃ q ∈ (w.step parser event).requests, q.id = requestId ∧ q.Committed := by
  obtain ⟨e, hemits, hsystem⟩ := (system_step parser w event).resolve_left hne
  rw [hsystem] at hne
  cases event with
  | transact requestId' clock render =>
      cases hevent
      obtain ⟨q, hfind, hq⟩ := Option.bind_eq_some_iff.1 hemits
      obtain ⟨hmem, rfl⟩ := KeyedTable.find?_eq_some.1 hfind
      split at hq
      · cases hq
      · next hdropped =>
          have hopen : q.dropped = false := by simpa using hdropped
          have hmoved := mem_requests_transact parser hmem hopen clock render
          have hstep : RequestStep w (.transact q.id clock render) q
              (q.transact w.system clock render) :=
            .transacted q clock render hopen rfl
          refine ⟨_, hmoved, q.id_transact w.system clock render, ?_⟩
          -- only a mark that is committed makes an event that changes the system
          unfold RewardRequest.event? at hq
          split at hq <;> cases hq
          · next sessionId initData telegramUserId hphase hcall huser =>
              cases h : markClientCompleted w.system.db sessionId telegramUserId clock with
              | error error => exact absurd (by simp [World.step, World.commit, h]) hne
              | ok value =>
                  left
                  simp [RewardRequest.transact, hphase, hcall, huser, h, RewardRequest.recorded]
          · next secret userid hphase hcall =>
              cases h : markProviderConfirmed w.system.db userid clock with
              | error error => exact absurd (by simp [World.step, World.commit, h]) hne
              | ok value =>
                  obtain ⟨db, view⟩ := value
                  cases view with
                  | none =>
                      right
                      exact ⟨.noContent, by simp [RewardRequest.transact, hphase, hcall, h], rfl⟩
                  | some view =>
                      left
                      simp [RewardRequest.transact, hphase, hcall, h, RewardRequest.recorded]
          · next sessionId hphase =>
              -- the later events belong to a request whose mark is committed already
              have hmarked := (hw.reports q hmem).delivering sessionId hphase
              exact RewardRequest.Committed.step (.inl (by simp [hmarked])) (hw.honest q hmem) hstep
          · next attemptId hphase =>
              obtain ⟨a, -, hmarked⟩ := (hw.reports q hmem).sending attemptId hphase
              exact RewardRequest.Committed.step (.inl (by simp [hmarked])) (hw.honest q hmem) hstep
  | copied requestId' answer =>
      cases hevent
      obtain ⟨q, hfind, hq⟩ := Option.bind_eq_some_iff.1 hemits
      obtain ⟨hmem, hid⟩ := KeyedTable.find?_eq_some.1 hfind
      split at hq
      · next attemptId hphase =>
          obtain ⟨a, -, hmarked⟩ := (hw.reports q hmem).sending attemptId hphase
          exact ⟨q, hmem, hid, .inl (by simp [hmarked])⟩
      · cases hq
  | system event => cases hevent
  | _ => cases hemits

/-- What has been done stays done. -/
theorem Answering.committed_after (hw : w.Answering) (events : List WebEvent) {q : RewardRequest}
    (hq : q ∈ w.requests) (h : q.Committed) :
    ∃ q' ∈ (w.after parser events).requests, q'.id = q.id ∧ q'.Committed := by
  induction events generalizing w q with
  | nil => exact ⟨q, hq, rfl, h⟩
  | cons event events ih =>
      have hrequests : RequestsStep w event (w.step parser event).requests := requestsStep w event
      obtain ⟨q', hq', hstep⟩ := hrequests.goes q hq
      obtain ⟨q'', hq'', hid, hcommitted⟩ :=
        ih (hw.step event) hq' (h.step (hw.honest q hq) hstep)
      exact ⟨q'', hq'', hid.trans hstep.frame.1, hcommitted⟩

/-- No event of a request that is turned away in the end changes the system. -/
def RefusalsLeaveNoTrace (parser : ArchiveParser) (w : WebWorld) (events : List WebEvent) : Prop :=
  ∀ q ∈ (w.after parser events).requests, ∀ response, q.phase = .answered response →
    response.isRefusal →
      Transition.Along (step parser)
        (fun w event => event.requestId? = some q.id → (w.step parser event).system = w.system)
        w events

theorem Answering.refusalsLeaveNoTrace (hw : w.Answering) (events : List WebEvent) :
    w.RefusalsLeaveNoTrace parser events := by
  intro q hq response hphase hrefused
  induction events generalizing w with
  | nil => trivial
  | cons event events ih =>
      refine ⟨fun hevent => ?_, ih (hw.step event) hq⟩
      by_contra hne
      -- a request that has changed the system is not turned away later
      obtain ⟨q₁, hq₁, hid₁, hcommitted⟩ := hw.committed hevent hne
      obtain ⟨q₂, hq₂, hid₂, hcommitted⟩ := (hw.step event).committed_after events hq₁ hcommitted
      obtain rfl := KeyedTable.ext_key _ hq₂ hq (hid₂.trans hid₁)
      have hafter : ((w.step parser event).after parser events).Answering :=
        Transition.run_invariant (fun _ event hw => hw.step event) (hw.step event) events
      have hnot : response.isRefusal = false := by
        rcases hcommitted with hmarked | ⟨response', hphase', hnot⟩
        · exact (hafter.reports q₂ hq).unrefused response hphase hmarked
        · cases hphase.symm.trans hphase'
          exact hnot
      rw [hnot] at hrefused
      cases hrefused

/-- **A request that is turned away leaves no trace.**  In every run, a request that ends with a
401, 403, 404, 410, 422 or 429 has not changed the system at any of its events, whatever its handler
had done before it answered. -/
theorem refused_requests_leave_no_trace (parser : ArchiveParser) (web : WebSettings)
    (settings : Settings) (archive : ArchiveTables) (events : List WebEvent) :
    (initial web settings archive).RefusalsLeaveNoTrace parser events :=
  (initial_answering web settings archive).refusalsLeaveNoTrace events

end WebWorld
end CineGate
