/-
**No deletion waits for ever.**

`claim_due_deletions` takes the due films in the order of `next_attempt_at` and of their ids.  From
the moment a film is due, nothing can get in front of it any more: whatever writes `next_attempt_at`
writes a later time.  So a film in the queue has only the films in front of it to wait for, and
every claim takes its full share of these until it takes the film itself.

* `Delivery.precedes`, `World.rowsAhead` — the films in front of a film;
* `Event.claimShare` — how many films a claim takes;
* `World.due_deletion_never_starves` — claims whose shares are more than the films in front of a
  film reach it, whatever happens between them.
-/

import CineGate.DeliveryGuarantees
import CineGate.LateCompletions
import CineGate.Progress
import CineGate.Ranking

set_option relaxedAutoImplicit false
set_option autoImplicit false

namespace CineGate

/-! ### The queue -/

instance : Std.Total dueLe := ⟨fun _ _ => le_total _ _⟩

instance : IsTrans Delivery dueLe := ⟨fun _ _ _ h h' => le_trans h h'⟩

/-- The film waits for its deletion in front of the other one. -/
def Delivery.precedes (d e : Delivery) : Bool := d.status = .sent && dueLe d e && d.id ≠ e.id

/-- The clock a transaction reads. -/
def Event.clock? : Event → Option Clock
  | .getOrCreate _ _ _ _ clock | .get _ clock | .claimPrompt _ _ clock | .completePrompt _ _ _ clock
  | .markClientCompleted _ _ clock | .markProviderConfirmed _ clock | .prepare _ _ clock
  | .complete _ clock | .recoverStaleSends _ _ clock | .recoverStaleDeletions _ clock
  | .claimDueDeletions _ _ clock | .reportDeletion _ clock => some clock
  | .resetPromptClaim .. | .copyMessage .. | .deleteMessage .. | .ingest .. | .reconcileEdit ..
  | .changeArchive .. | .changeSettings .. => none

/-- The clocks of the event show a time after `t`. -/
def Event.IsAfter (t : Instant) (event : Event) : Prop :=
  ∀ clock ∈ event.clock?, t < clock.utcnow ∧ t < clock.now

/-- How many films the event claims, if as many are due. -/
def Event.claimShare : Event → ℕ
  | .claimDueDeletions limit _ _ => (max 1 (min 100 limit)).toNat
  | _ => 0

/-- The event is a claim that does not skip the row as locked. -/
def Event.Sees (deliveryId : ℕ) : Event → Prop
  | .claimDueDeletions _ locked _ => locked deliveryId = false
  | _ => True

instance (t : Instant) (event : Event) : Decidable (event.IsAfter t) :=
  inferInstanceAs (Decidable (∀ clock ∈ event.clock?, t < clock.utcnow ∧ t < clock.now))

instance (deliveryId : ℕ) (event : Event) : Decidable (event.Sees deliveryId) := by
  cases event <;> unfold Event.Sees <;> infer_instance

namespace World

/-- The films in front of a film. -/
def rowsAhead (w : World) (d : Delivery) : List Delivery :=
  w.db.deliveries.rows.filter fun e => e.precedes d

/-- The event claims the deletion of the film. -/
def Claims (w : World) (d : Delivery) (event : Event) : Prop :=
  ∃ limit locked clock, event = .claimDueDeletions limit locked clock ∧
    d ∈ w.db.dueDeletions limit clock.utcnow locked

/-- Every claimed copy will be kept for some time. -/
def Timed (w : World) : Prop := ∀ a ∈ w.attempts, 0 < a.prepared.deleteSeconds

variable {w : World}

/-! ### How long a copy is kept -/

/-- A time that lies some seconds ahead. -/
theorem lt_add_seconds {t now : Instant} {n : ℤ} (h : t < now) (hn : 0 < n) : t < now + seconds n :=
  lt_trans h (Int.lt_add_of_pos_right now (Int.mul_pos hn (by decide)))

/-- `_bounded_delete_seconds` is positive. -/
theorem boundedDeleteSeconds_pos (value : Option SettingValue) :
    0 < boundedDeleteSeconds value := by
  unfold boundedDeleteSeconds
  split
  · omega
  · decide

/-- The backoff of `reschedule_delete` is positive. -/
theorem backoff_pos (attempts : ℕ) : (0 : ℤ) < min 300 (5 * 2 ^ min (attempts + 1 - 1) 6) :=
  lt_min (by decide) (Int.mul_pos (by decide) (Int.pow_pos (by decide)))

theorem claimDelivery_deleteSeconds {db db' : Db} {reward : RewardSession} {row : MovieQuality}
    {caption : RenderedTemplate} {deleteSeconds : ℤ} {now : Instant} {prepared : PreparedDelivery}
    (h : claimDelivery db reward row caption deleteSeconds now = .ok (db', .inl prepared)) :
    prepared.deleteSeconds = deleteSeconds := by
  unfold claimDelivery at h
  generalize db.ensureDelivery reward row = added at h
  obtain ⟨db₁, d⟩ := added
  simp only [Db.commitDelivery] at h
  split at h
  · split at h <;> cases h
  · split at h
    · split at h <;> cases h
    · split at h
      · cases h
        rfl
      · cases h

theorem prepare_deleteSeconds {db db' : Db} {render : CaptionRenderer} {sessionId : ℕ}
    {clock : Clock} {prepared : PreparedDelivery}
    (h : CineGate.prepare db render sessionId clock = .ok (db', .inl prepared)) :
    0 < prepared.deleteSeconds := by
  unfold CineGate.prepare at h
  dsimp only at h
  split at h
  · cases h
  · split at h
    · split at h <;> cases h
    · split at h
      · cases h
      · split at h
        · cases h
        · split at h
          · unfold Db.commitDelivery at h
            split at h <;> cases h
          · split at h
            · split at h
              · cases h
              · rw [claimDelivery_deleteSeconds h]
                exact boundedDeleteSeconds_pos _
            · cases h

/-! ### What an event does to the queue -/

/-- A waiting film is claimed, or it is left as it is. -/
theorem Sound.deliveryAfter_sent (hw : w.Sound) {event : Event} {d : Delivery}
    (hd : d ∈ w.db.deliveries) (hsent : d.status = .sent) (hnot : ¬ w.Claims d event) :
    w.deliveryAfter event d = d := by
  have hstep : DeliveryStep w event d (w.deliveryAfter event d) := deliveryStep hd
  generalize w.deliveryAfter event d = d' at hstep
  cases hstep with
  | idle => rfl
  | claimed sessionId render clock db' prepared he h hid =>
      exact absurd (hsent.symm.trans (hw.pending_of_prepare h hd hid)) (by decide)
  | finalized attemptId clock a messageId he ha hid hphase hunsent => exact absurd hsent hunsent
  | reset attemptId clock a error he ha hid hphase hsending =>
      exact absurd (hsent.symm.trans hsending) (by decide)
  | sendRecovered staleSeconds locked clock he hpos hstale =>
      simp [Delivery.isStaleSend, hsent] at hstale
  | deletionRecovered staleSeconds clock he hdeleting =>
      exact absurd (hsent.symm.trans hdeleting) (by decide)
  | deletionClaimed limit locked clock he hdue => exact absurd ⟨limit, locked, clock, he, hdue⟩ hnot
  | reported taskId clock task answer he ht ha hopen hid hdeleting =>
      exact absurd (hsent.symm.trans hdeleting) (by decide)

/-- A film whose turn comes at a later time is not in front. -/
theorem not_precedes_of_lt {d e : Delivery} {t due : Instant} (hd : d.nextAttemptAt = some t)
    (he : e.nextAttemptAt = some due) (hlt : t < due) : e.precedes d = false := by
  have hnot : ¬ dueLe e d := by
    unfold dueLe
    rw [hd, he, Prod.Lex.toLex_le_toLex]
    rintro (h | ⟨h, -⟩)
    · exact lt_asymm hlt h
    · exact hlt.ne' h
  simp [Delivery.precedes, hnot]

/-- **Nothing gets in front of a film that is due.**  A film that is in front of it after an event
was there before. -/
theorem Timed.deliveryAfter_precedes (htimed : w.Timed) {event : Event}
    {d e : Delivery} {t : Instant} (hd : d.nextAttemptAt = some t) (hafter : event.IsAfter t)
    (he : e ∈ w.db.deliveries) (hprecedes : (w.deliveryAfter event e).precedes d) :
    w.deliveryAfter event e = e := by
  have hstep : DeliveryStep w event e (w.deliveryAfter event e) := deliveryStep he
  generalize w.deliveryAfter event e = e' at hstep hprecedes
  have hsent : e'.status = .sent := by
    simp only [Delivery.precedes, Bool.and_eq_true, decide_eq_true_eq] at hprecedes
    exact hprecedes.1.1
  have hlate : ∀ due, e'.nextAttemptAt = some due → ¬ t < due := by
    intro due hdue hlt
    rw [not_precedes_of_lt hd hdue hlt] at hprecedes
    cases hprecedes
  cases hstep with
  | idle => rfl
  | claimed sessionId render clock db' prepared heq h hid => cases hsent
  -- a film delivered now is due later than `t`
  | finalized attemptId clock a messageId heq ha hid hphase hunsent =>
      subst heq
      exact absurd (lt_add_seconds (hafter clock rfl).1 (htimed a (KeyedTable.mem_of_find? ha)))
        (hlate _ rfl)
  | reset attemptId clock a error heq ha hid hphase hsending => cases hsent
  | sendRecovered staleSeconds locked clock heq hpos hstale => cases hsent
  | deletionRecovered staleSeconds clock heq hdeleting =>
      subst heq
      exact absurd (hafter clock rfl).2 (hlate _ rfl)
  | deletionClaimed limit locked clock heq hdue =>
      unfold Delivery.claimDeletion at hsent
      split at hsent <;> cases hsent
  | reported taskId clock task answer heq ht ha hopen hid hdeleting =>
      subst heq
      unfold reportDelivery at hsent hlate
      split at hsent
      · rw [Delivery.whenDeleting, if_pos hdeleting] at hsent
        cases hsent
      · rw [Delivery.whenDeleting, if_pos hdeleting] at hsent
        cases hsent
      · -- a film that is put off is due later than `t`
        next error hreport =>
          simp only [hreport, Delivery.whenDeleting, if_pos hdeleting] at hlate
          exact absurd (lt_add_seconds (hafter clock rfl).1 (backoff_pos _)) (hlate _ rfl)

theorem mem_rowsAhead {d e : Delivery} :
    e ∈ w.rowsAhead d ↔ e ∈ w.db.deliveries ∧ e.precedes d := List.mem_filter

theorem nodup_rowsAhead (d : Delivery) : (w.rowsAhead d).Nodup :=
  (w.db.deliveries.ordered.imp fun h => ne_of_apply_ne Delivery.id h.ne).filter _

/-- The films a claim takes are in front of a due film that it leaves. -/
theorem rowsAhead_of_claim {d : Delivery} {limit : ℤ} {locked : ℕ → Bool} {now : Instant}
    (hd : d ∈ w.db.deliveries) (hdue : d.isDue now locked)
    (hleft : d ∉ w.db.dueDeletions limit now locked) :
    (w.db.dueDeletions limit now locked).length = (max 1 (min 100 limit)).toNat ∧
      ∀ e ∈ w.db.dueDeletions limit now locked, e ∈ w.rowsAhead d := by
  obtain ⟨hlength, hle⟩ := Ranking.take_insertionSort_of_notMem
    (List.mem_filter.2 ⟨hd, hdue⟩ : d ∈ w.db.deliveries.rows.filter (Delivery.isDue now locked))
      hleft
  refine ⟨hlength, fun e he => ?_⟩
  obtain ⟨hmem, hedue⟩ := Db.mem_dueDeletions he
  have hne : e.id ≠ d.id := by
    intro hid
    exact hleft (w.db.deliveries.ext_key hmem hd hid ▸ he)
  simp only [Delivery.isDue, Bool.and_eq_true, decide_eq_true_eq] at hedue
  simp [mem_rowsAhead, hmem, Delivery.precedes, hedue.1.1.1, hle e he, hne]

section Step

variable [UnicodeData] {parser : ArchiveParser}

theorem Timed.step (hw : w.Timed) (event : Event) : (World.step parser w event).Timed := by
  intro a ha
  rcases attempt_origin ha with ⟨a₀, ha₀, hstep⟩ | ⟨render, clock, -, h, -⟩
  · rw [← hstep.frame.2.2]
    exact hw a₀ ha₀
  · exact prepare_deleteSeconds h

/-- A film in front of a due one after an event was there before, and is as it was. -/
theorem Sound.mem_rowsAhead_step (hw : w.Sound) (htimed : w.Timed) {event : Event} {d e : Delivery}
    {t : Instant} (hd : d.nextAttemptAt = some t) (hafter : event.IsAfter t)
    (he : e ∈ (World.step parser w event).rowsAhead d) :
    e ∈ w.rowsAhead d ∧ w.deliveryAfter event e = e := by
  obtain ⟨hmem, hprecedes⟩ := mem_rowsAhead.1 he
  have hfind := KeyedTable.find?_of_mem hmem
  cases hold : w.db.deliveries.find? e.id with
  | none =>
      obtain ⟨a, -, -, -, hsending, -⟩ := hw.delivery_origin hfind hold
      simp [Delivery.precedes, hsending] at hprecedes
  | some e₀ =>
      have he₀ := KeyedTable.mem_of_find? hold
      rw [hw.find?_deliveries_step parser event hold, Option.some.injEq] at hfind
      have hsame := htimed.deliveryAfter_precedes hd hafter he₀ (hfind.symm ▸ hprecedes)
      obtain rfl : e₀ = e := hsame.symm.trans hfind
      exact ⟨mem_rowsAhead.2 ⟨he₀, hprecedes⟩, hsame⟩

/-- **An event that does not reach a due film takes its share of the films in front of it.** -/
theorem Sound.rowsAhead_step (hw : w.Sound) (htimed : w.Timed) {event : Event} {d : Delivery}
    {t : Instant} (hmem : d ∈ w.db.deliveries) (hsent : d.status = .sent)
    (hd : d.nextAttemptAt = some t) (hafter : event.IsAfter t) (hsees : event.Sees d.id)
    (hnot : ¬ w.Claims d event) :
    ((World.step parser w event).rowsAhead d).length + event.claimShare ≤
      (w.rowsAhead d).length := by
  have hsubset : ∀ e ∈ (World.step parser w event).rowsAhead d,
      e ∈ w.rowsAhead d ∧ w.deliveryAfter event e = e :=
    fun e he => hw.mem_rowsAhead_step htimed hd hafter he
  have hnodup : ((World.step parser w event).rowsAhead d).Nodup := nodup_rowsAhead d
  generalize (World.step parser w event).rowsAhead d = after at hsubset hnodup
  by_cases hclaim : ∃ limit locked clock, event = .claimDueDeletions limit locked clock
  · obtain ⟨limit, locked, clock, rfl⟩ := hclaim
    have hdue : d.isDue clock.utcnow locked := by
      obtain ⟨r, he⟩ := hw.entitlement_of_delivery hmem
      have hschedule := (hw.db.wellFormed _ _ he).schedule d rfl
      simp only [Delivery.OnSchedule, hsent] at hschedule
      have hle : t ≤ clock.utcnow := (hafter clock rfl).1.le
      have hunlocked : locked d.id = false := hsees
      simp [Delivery.isDue, hsent, hschedule.1, hd, hle, hunlocked]
    have hleft : d ∉ w.db.dueDeletions limit clock.utcnow locked :=
      fun h => hnot ⟨limit, locked, clock, rfl, h⟩
    obtain ⟨hlength, hahead⟩ := rowsAhead_of_claim hmem hdue hleft
    -- what is claimed waits no longer
    have hdisjoint : (w.db.dueDeletions limit clock.utcnow locked).Disjoint after := by
      intro e he hafter
      have hsame := (hsubset e hafter).2
      have hstatus : (e.claimDeletion clock.utcnow).status ≠ .sent := by
        unfold Delivery.claimDeletion
        split <;> simp
      simp only [deliveryAfter, List.mem_map_of_mem he, if_true] at hsame
      rw [hsame] at hstatus
      have hdue := (Db.mem_dueDeletions he).2
      simp only [Delivery.isDue, Bool.and_eq_true, decide_eq_true_eq] at hdue
      exact hstatus hdue.1.1.1
    have hclaimed : (w.db.dueDeletions limit clock.utcnow locked).Nodup := by
      refine List.Nodup.sublist (List.take_sublist _ _) ?_
      rw [(List.perm_insertionSort dueLe _).nodup_iff]
      exact (w.db.deliveries.ordered.imp fun h => ne_of_apply_ne Delivery.id h.ne).filter _
    have hsum :
        List.Subperm (w.db.dueDeletions limit clock.utcnow locked ++ after) (w.rowsAhead d) :=
      List.subperm_of_subset (hclaimed.append hnodup hdisjoint) fun e he =>
        (List.mem_append.1 he).elim (hahead e) fun h => (hsubset e h).1
    have hsum := hsum.length_le
    rw [List.length_append, hlength] at hsum
    change after.length + (max 1 (min 100 limit)).toNat ≤ _
    omega
  · have hshare : event.claimShare = 0 := by
      cases event with
      | claimDueDeletions limit locked clock => exact absurd ⟨limit, locked, clock, rfl⟩ hclaim
      | _ => rfl
    rw [hshare, Nat.add_zero]
    exact (List.subperm_of_subset hnodup fun e he => (hsubset e he).1).length_le

variable (parser) in
/-- **No deletion waits for ever.**  Once a sent film is due, a run whose claims together take more
films than were in front of it claims it, whatever else happens in between, provided no claim skips
its row as locked. -/
theorem due_deletion_never_starves (settings : Settings) (archive : ArchiveTables)
    (before later : List Event) {d : Delivery} {t : Instant}
    (hmem : d ∈ ((initial settings archive).after parser before).db.deliveries)
    (hsent : d.status = .sent) (hdue : d.nextAttemptAt = some t)
    (hlater : ∀ event ∈ later, event.IsAfter t ∧ event.Sees d.id)
    (hshares : (((initial settings archive).after parser before).rowsAhead d).length <
      (later.map Event.claimShare).sum) :
    ∃ pre limit locked clock rest, later = pre ++ .claimDueDeletions limit locked clock :: rest ∧
      d ∈ ((initial settings archive).after parser (before ++ pre)).db.dueDeletions limit
        clock.utcnow locked := by
  have htimed : ((initial settings archive).after parser before).Timed :=
    Transition.run_invariant (fun _ event h => h.step event) (fun a ha => by cases ha) before
  have hsound : ((initial settings archive).after parser before).Sound :=
    sound_after settings archive before
  obtain ⟨pre, event, rest, rfl, -, limit, locked, clock, rfl, hclaims⟩ :=
    Transition.served_of_rank_lt
      (I := fun w : World => w.Sound ∧ w.Timed ∧ d ∈ w.db.deliveries)
      (P := fun _ event => event.IsAfter t ∧ event.Sees d.id) (S := fun w : World => w.Claims d)
      (r := fun w : World => (w.rowsAhead d).length) (e := Event.claimShare)
      (fun (w : World) event hw hevent hnot => by
        obtain ⟨hw, htimed, hmem⟩ := hw
        have hkept := hw.find?_deliveries_step parser event (KeyedTable.find?_of_mem hmem)
        rw [hw.deliveryAfter_sent hmem hsent hnot] at hkept
        exact ⟨⟨hw.step event, htimed.step event, KeyedTable.mem_of_find? hkept⟩,
          hw.rowsAhead_step htimed hmem hsent hdue hevent.1 hevent.2 hnot⟩)
      ⟨hsound, htimed, hmem⟩ (Transition.along_of_forall fun event h _ => hlater event h) hshares
  refine ⟨pre, limit, locked, clock, rest, rfl, ?_⟩
  rw [after, Transition.run_append]
  exact hclaims

end Step

section Witness

attribute [local instance] UnicodeData.asciiArabic

/-- A user earns the film and receives it as a message, within thirty-one seconds. -/
def earningAndReceiving (telegramUserId : ℤ) (sessionId attemptId messageId : ℕ) (start : ℤ) :
    List Event :=
  [.getOrCreate telegramUserId 1 "720p".toList sessionId (atSecond start),
    .markClientCompleted sessionId telegramUserId (atSecond (start + 10)),
    .markProviderConfirmed telegramUserId (atSecond (start + 20)),
    .prepare sessionId (fun r => some ⟨r.movie, []⟩) (atSecond (start + 30)),
    .copyMessage attemptId (.copied messageId), .complete attemptId (atSecond (start + 31))]

/-- Three films are sent, twenty seconds after each other. -/
def threeFilms : List Event :=
  earningAndReceiving 6 41 1 901 0 ++ earningAndReceiving 7 42 2 902 20 ++
    earningAndReceiving 5 40 3 903 40

/-- The last delivery of `threeFilms`. -/
def lastDelivery : Delivery :=
  { sentDelivery with
    id := 3
    telegramMessageId := some 903
    sentAt := some (seconds 71)
    deleteAt := some (seconds 191)
    nextAttemptAt := some (seconds 191) }

/-- Telegram does not answer in time. -/
def deletionTimeout : DeleteAnswer := .refused ⟨.other, "timeout".toList, "timeout".toList⟩

/-- The last film of `threeFilms` has two in front of it, and the first of these is put back. -/
theorem due_deletion_never_starves_claimed :
    ∃ pre limit locked clock rest,
      [Event.recoverStaleDeletions 60 (atSecond 195),
        .claimDueDeletions 1 (fun _ => false) (atSecond 200), .deleteMessage 1 deletionTimeout,
        .reportDeletion 1 (atSecond 201),
        .claimDueDeletions 2 (fun _ => false) (atSecond 210)] =
          pre ++ .claimDueDeletions limit locked clock :: rest ∧
      lastDelivery ∈ ((initial {} oneFile).after {} (threeFilms ++ pre)).db.dueDeletions limit
        clock.utcnow locked :=
  due_deletion_never_starves {} {} oneFile threeFilms _
    (KeyedTable.mem_of_find? (k := 3) (by decide +kernel)) rfl (t := seconds 191) rfl
    (by decide) (by decide +kernel)

end Witness
end World
end CineGate
