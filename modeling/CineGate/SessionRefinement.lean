/-
**Every transaction moves every session by the moves of an entitlement.**

The database seen from one session is its `Entitlement`.  A transaction writes to several rows; this
file shows that for each single session it amounts to some moves of `SessionStep`, and that it keeps
the deliveries linked to the sessions they belong to.

* `Db.entitlement?` — the entitlement of a session;
* `Db.Sound` — each delivery belongs to a session, no session has two, and every entitlement is
  well formed;
* `Db.Moves` — each session has moved by some moves, and the deliveries are still linked;
* `getOrCreate_commits`, …, `rescheduleDelete_commits` — the transactions.
-/

import CineGate.Entitlements

set_option relaxedAutoImplicit false
set_option autoImplicit false

namespace CineGate

namespace Db

variable {db db' db'' : Db} {sid : ℕ} {e : Entitlement}

/-- A session of the database with its delivery. -/
def entitlement? (db : Db) (sessionId : ℕ) : Option Entitlement :=
  (db.rewardSessions.find? sessionId).map fun reward => ⟨reward, db.deliveryOf? sessionId⟩

/-- The deliveries belong to sessions, and no session has two. -/
structure Linked (db : Db) : Prop where
  unique : (db.deliveries.rows.map Delivery.rewardSessionId).Nodup
  owned : ∀ d ∈ db.deliveries, (db.rewardSessions.find? d.rewardSessionId).isSome

/-- The invariant of the database that concerns one session at a time. -/
structure Sound (db : Db) : Prop extends Linked db where
  wellFormed : ∀ sid e, db.entitlement? sid = some e → e.WellFormed

/-- Every session has moved by some moves.  `copied` tells which messages a finalized send of a
session may name. -/
structure Moves (copied : ℕ → ℕ → Prop) (db db' : Db) : Prop where
  steps : ∀ sid, SessionSteps (copied sid) (db.entitlement? sid) (db'.entitlement? sid)
  linked : db'.Linked

/-- The moves of a transaction that creates no session. -/
structure Updates (copied : ℕ → ℕ → Prop) (db db' : Db) : Prop extends Moves copied db db' where
  noNew : ∀ sid, db.rewardSessions.find? sid = none → db'.rewardSessions.find? sid = none

theorem entitlement?_eq_some : db.entitlement? sid = some e ↔
    db.rewardSessions.find? sid = some e.reward ∧ db.deliveryOf? sid = e.delivery := by
  obtain ⟨reward, delivery⟩ := e
  simp [entitlement?]

theorem deliveryOf?_mem {d : Delivery} (h : db.deliveryOf? sid = some d) :
    d ∈ db.deliveries ∧ d.rewardSessionId = sid :=
  ⟨List.mem_of_find?_eq_some h, by simpa using List.find?_some h⟩

/-- The delivery of a session is the only row that names the session. -/
theorem Linked.deliveryOf?_eq {d : Delivery} (h : db.Linked) (hd : d ∈ db.deliveries) :
    db.deliveryOf? d.rewardSessionId = some d := by
  cases hf : db.deliveryOf? d.rewardSessionId with
  | none => simpa [deliveryOf?] using List.find?_eq_none.1 hf d hd
  | some d' =>
      obtain ⟨hd', hsid⟩ := deliveryOf?_mem hf
      rw [List.inj_on_of_nodup_map h.unique hd' hd hsid]

theorem Linked.deliveryOf?_eq_some (h : db.Linked) {d : Delivery} :
    db.deliveryOf? sid = some d ↔ d ∈ db.deliveries ∧ d.rewardSessionId = sid := by
  constructor
  · exact deliveryOf?_mem
  · rintro ⟨hd, rfl⟩
    exact h.deliveryOf?_eq hd

theorem reward_id (h : db.entitlement? sid = some e) : e.reward.id = sid :=
  KeyedTable.key_of_find? (entitlement?_eq_some.1 h).1

theorem delivery_mem {d : Delivery} (h : db.entitlement? sid = some e) (hd : e.delivery = some d) :
    d ∈ db.deliveries ∧ d.rewardSessionId = sid :=
  deliveryOf?_mem (hd ▸ (entitlement?_eq_some.1 h).2)

/-- A session without a row has no delivery. -/
theorem Linked.deliveryOf?_eq_none (h : db.Linked) (hsid : db.rewardSessions.find? sid = none) :
    db.deliveryOf? sid = none := by
  rw [Option.eq_none_iff_forall_ne_some]
  intro d hd
  obtain ⟨hmem, rfl⟩ := deliveryOf?_mem hd
  have howned := h.owned d hmem
  rw [hsid] at howned
  cases howned

/-! ### Chains of moves -/

variable {copied : ℕ → ℕ → Prop}

theorem Linked.updates_refl (h : db.Linked) : db.Updates copied db :=
  ⟨⟨fun _ => .refl, h⟩, fun _ h => h⟩

theorem Moves.trans (h : db.Moves copied db') (h' : db'.Moves copied db'') :
    db.Moves copied db'' :=
  ⟨fun sid => (h.steps sid).trans (h'.steps sid), h'.linked⟩

theorem Updates.trans (h : db.Updates copied db') (h' : db'.Updates copied db'') :
    db.Updates copied db'' :=
  ⟨h.toMoves.trans h'.toMoves, fun sid hsid => h'.noNew sid (h.noNew sid hsid)⟩

theorem Sound.of_moves (h : db.Sound) (hm : db.Moves copied db') : db'.Sound := by
  refine ⟨hm.linked, fun sid e he => ?_⟩
  exact (hm.steps sid).wellFormed (h.wellFormed sid) e he

/-! ### Writing to rows -/

/-- Write to every session and to every delivery. -/
def modifyRows (db : Db) (f : RewardSession → RewardSession) (hf : ∀ r, (f r).id = r.id)
    (g : Delivery → Delivery) (hg : ∀ d, (g d).id = d.id) : Db :=
  { db with
    rewardSessions := db.rewardSessions.modify f hf
    deliveries := db.deliveries.modify g hg }

variable {f : RewardSession → RewardSession} {hf : ∀ r, (f r).id = r.id} {g : Delivery → Delivery}
  {hg : ∀ d, (g d).id = d.id}

theorem deliveryOf?_modifyRows (hsession : ∀ d, (g d).rewardSessionId = d.rewardSessionId) :
    (db.modifyRows f hf g hg).deliveryOf? sid = (db.deliveryOf? sid).map g := by
  have hpred : (fun delivery : Delivery => decide (delivery.rewardSessionId = sid)) ∘ g =
      fun delivery => decide (delivery.rewardSessionId = sid) :=
    funext fun delivery => by rw [Function.comp_apply, hsession]
  refine (List.find?_map ..).trans ?_
  rw [hpred]
  rfl

theorem entitlement?_modifyRows (hsession : ∀ d, (g d).rewardSessionId = d.rewardSessionId) :
    (db.modifyRows f hf g hg).entitlement? sid =
      (db.entitlement? sid).map fun e => ⟨f e.reward, e.delivery.map g⟩ := by
  rw [entitlement?, entitlement?, deliveryOf?_modifyRows hsession]
  simp [modifyRows, KeyedTable.find?_modify, Function.comp_def]

theorem Linked.modifyRows (h : db.Linked)
    (hsession : ∀ d, (g d).rewardSessionId = d.rewardSessionId) :
    (db.modifyRows f hf g hg).Linked := by
  constructor
  · simpa [Db.modifyRows, Function.comp_def, hsession] using h.unique
  · intro d hd
    have hd : d ∈ db.deliveries.modify g hg := hd
    obtain ⟨d₀, hd₀, rfl⟩ := KeyedTable.mem_modify.1 hd
    simpa [Db.modifyRows, KeyedTable.find?_modify, hsession] using h.owned d₀ hd₀

/-- Writing to the rows moves every session, if it moves each entitlement. -/
theorem Linked.updates_modifyRows (h : db.Linked)
    (hsession : ∀ d, (g d).rewardSessionId = d.rewardSessionId)
    (hsteps : ∀ sid e, db.entitlement? sid = some e →
      SessionSteps (copied sid) (some e) (some ⟨f e.reward, e.delivery.map g⟩)) :
    db.Updates copied (db.modifyRows f hf g hg) := by
  refine ⟨⟨fun sid => ?_, h.modifyRows hsession⟩, fun sid hsid => ?_⟩
  rotate_left
  · simp [Db.modifyRows, KeyedTable.find?_modify, hsid]
  rw [entitlement?_modifyRows hsession]
  cases he : db.entitlement? sid with
  | none => exact .refl
  | some e => exact hsteps sid e he

theorem modifyRows_rewards : db.modifyRows f hf id (fun _ => rfl) =
    { db with rewardSessions := db.rewardSessions.modify f hf } := by
  have hid : db.deliveries.modify id (fun _ => rfl) = db.deliveries := KeyedTable.ext (by simp)
  rw [modifyRows, hid]

theorem modifyRows_deliveries : db.modifyRows id (fun _ => rfl) g hg =
    { db with deliveries := db.deliveries.modify g hg } := by
  have hid : db.rewardSessions.modify id (fun _ => rfl) = db.rewardSessions :=
    KeyedTable.ext (by simp)
  rw [modifyRows, hid]

/-- Writing to the sessions alone. -/
theorem Linked.updates_rewards (h : db.Linked)
    (hsteps : ∀ sid e, db.entitlement? sid = some e →
      SessionSteps (copied sid) (some e) (some ⟨f e.reward, e.delivery⟩)) :
    db.Updates copied { db with rewardSessions := db.rewardSessions.modify f hf } := by
  rw [← modifyRows_rewards]
  refine h.updates_modifyRows (fun _ => rfl) fun sid e he => ?_
  simpa using hsteps sid e he

/-- Writing to the deliveries alone. -/
theorem Linked.updates_deliveries (h : db.Linked)
    (hsession : ∀ d, (g d).rewardSessionId = d.rewardSessionId)
    (hsteps : ∀ sid r d, db.entitlement? sid = some ⟨r, some d⟩ →
      SessionSteps (copied sid) (some ⟨r, some d⟩) (some ⟨r, some (g d)⟩)) :
    db.Updates copied { db with deliveries := db.deliveries.modify g hg } := by
  rw [← modifyRows_deliveries]
  refine h.updates_modifyRows hsession fun sid e he => ?_
  obtain ⟨r, d⟩ := e
  cases d with
  | none => exact .refl
  | some d => exact hsteps sid r d he

/-- Writing to one session. -/
theorem Linked.updates_updateReward (h : db.Linked) {s : ℕ}
    (hsteps : ∀ e, db.entitlement? s = some e →
      SessionSteps (copied s) (some e) (some ⟨f e.reward, e.delivery⟩)) :
    db.Updates copied (db.updateReward s f hf) := by
  refine h.updates_rewards fun sid e he => ?_
  have hid := reward_id he
  by_cases hs : sid = s
  · subst hs
    simpa [hid] using hsteps e he
  · simpa [hid, hs] using Relation.ReflTransGen.refl

/-- Writing to one delivery. -/
theorem Linked.updates_updateDelivery (h : db.Linked) {deliveryId : ℕ}
    (hsession : ∀ d, (g d).rewardSessionId = d.rewardSessionId)
    (hsteps : ∀ sid r d, db.entitlement? sid = some ⟨r, some d⟩ → d.id = deliveryId →
      SessionSteps (copied sid) (some ⟨r, some d⟩) (some ⟨r, some (g d)⟩)) :
    db.Updates copied (db.updateDelivery deliveryId g hg) := by
  refine h.updates_deliveries (fun d => ?_) fun sid r d he => ?_
  · split
    · exact hsession d
    · rfl
  · by_cases hd : d.id = deliveryId
    · simpa [hd] using hsteps sid r d he hd
    · simpa [hd] using Relation.ReflTransGen.refl

theorem updateDelivery_updateReward {s deliveryId : ℕ} :
    (db.updateReward s f hf).updateDelivery deliveryId g hg =
      db.modifyRows (fun r => if r.id = s then f r else r) (by intro r; split <;> simp [hf])
        (fun d => if d.id = deliveryId then g d else d) (by intro d; split <;> simp [hg]) := rfl

variable (db) in
theorem find?_deliveries_updateBoth {s deliveryId id : ℕ} :
    ((db.updateReward s f hf).updateDelivery deliveryId g hg).deliveries.find? id =
      if id = deliveryId then (db.deliveries.find? deliveryId).map g else db.deliveries.find? id :=
  KeyedTable.find?_modifyAt db.deliveries deliveryId id g hg

theorem entitlement?_updateBoth {s : ℕ} {r : RewardSession} {d : Delivery}
    (he : db.entitlement? s = some ⟨r, some d⟩)
    (hsession : ∀ d, (g d).rewardSessionId = d.rewardSessionId) :
    ((db.updateReward s f hf).updateDelivery d.id g hg).entitlement? s =
      some ⟨f r, some (g d)⟩ := by
  have hid : r.id = s := reward_id he
  rw [updateDelivery_updateReward, entitlement?_modifyRows, he]
  · simp [hid]
  · intro d'
    split
    · exact hsession d'
    · rfl

/-- Writing to one session and to its delivery. -/
theorem Linked.updates_updateBoth (h : db.Linked) {s : ℕ} {r : RewardSession} {d : Delivery}
    (he : db.entitlement? s = some ⟨r, some d⟩)
    (hsession : ∀ d, (g d).rewardSessionId = d.rewardSessionId)
    (hstep : SessionSteps (copied s) (some ⟨r, some d⟩) (some ⟨f r, some (g d)⟩)) :
    db.Updates copied ((db.updateReward s f hf).updateDelivery d.id g hg) := by
  have hd := delivery_mem he rfl
  rw [updateDelivery_updateReward]
  refine h.updates_modifyRows (fun d' => ?_) fun sid e' he' => ?_
  · split
    · exact hsession d'
    · rfl
  · have hid := reward_id he'
    by_cases hs : sid = s
    · subst hs
      cases he.symm.trans he'
      have hid : r.id = sid := hid
      simpa [hid] using hstep
    · have hdelivery : (e'.delivery.map fun d' => if d'.id = d.id then g d' else d') =
          e'.delivery := by
        cases hd' : e'.delivery with
        | none => rfl
        | some d' =>
            obtain ⟨hmem, hsid⟩ := delivery_mem he' hd'
            have hne : d'.id ≠ d.id := by
              intro heq
              have heq : d' = d := db.deliveries.ext_key hmem hd.1 heq
              exact hs (hsid.symm.trans (heq ▸ hd.2))
            simp [hne]
      rw [hdelivery]
      simpa [hid, hs] using Relation.ReflTransGen.refl

/-! ### Adding rows -/

theorem Linked.moves_insertReward (h : db.Linked) {r : RewardSession}
    (hnew : db.rewardSessions.find? r.id = none)
    (hstep : SessionSteps (copied r.id) none (some ⟨r, none⟩)) :
    db.Moves copied { db with rewardSessions := db.rewardSessions.insert r } := by
  have hfind := fun sid => KeyedTable.find?_insert hnew sid
  refine ⟨fun sid => ?_, h.unique, fun d hd => ?_⟩
  · have hdelivery : Db.deliveryOf? { db with rewardSessions := db.rewardSessions.insert r } sid =
        db.deliveryOf? sid := rfl
    rw [entitlement?, entitlement?, hdelivery, hfind]
    split
    · next hs =>
        subst hs
        simpa [hnew, h.deliveryOf?_eq_none hnew] using hstep
    · exact .refl
  · rw [hfind]
    split
    · rfl
    · exact h.owned d hd

theorem Linked.updates_insertDelivery (h : db.Linked) {r : RewardSession} {d : Delivery}
    (he : db.entitlement? d.rewardSessionId = some ⟨r, none⟩)
    (hnew : db.deliveries.find? d.id = none)
    (hstep : SessionSteps (copied d.rewardSessionId) (some ⟨r, none⟩) (some ⟨r, some d⟩)) :
    db.Updates copied { db with deliveries := db.deliveries.insert d } ∧
      Db.entitlement? { db with deliveries := db.deliveries.insert d } d.rewardSessionId =
        some ⟨r, some d⟩ := by
  obtain ⟨hr, hnone⟩ := entitlement?_eq_some.1 he
  have hlinked : Linked { db with deliveries := db.deliveries.insert d } := by
    constructor
    · rw [((KeyedTable.perm_insert hnew).map Delivery.rewardSessionId).nodup_iff, List.map_cons]
      refine List.nodup_cons.2 ⟨?_, h.unique⟩
      intro hmem
      obtain ⟨d', hd', hsid⟩ := List.mem_map.1 hmem
      have hsome := h.deliveryOf?_eq hd'
      rw [hsid, hnone] at hsome
      cases hsome
    · intro d' hd'
      rcases KeyedTable.mem_of_mem_insert hd' with rfl | hd'
      · have hr : db.rewardSessions.find? d'.rewardSessionId = some r := hr
        simp [hr]
      · exact h.owned d' hd'
  have hself : Db.deliveryOf? { db with deliveries := db.deliveries.insert d } d.rewardSessionId =
      some d := hlinked.deliveryOf?_eq ((KeyedTable.mem_insert hnew).2 (Or.inl rfl))
  have hent : Db.entitlement? { db with deliveries := db.deliveries.insert d } d.rewardSessionId =
      some ⟨r, some d⟩ := entitlement?_eq_some.2 ⟨hr, hself⟩
  refine ⟨⟨⟨fun sid => ?_, hlinked⟩, fun _ hsid => hsid⟩, hent⟩
  by_cases hs : sid = d.rewardSessionId
  · subst hs
    rw [he, hent]
    exact hstep
  · have hother : Db.deliveryOf? { db with deliveries := db.deliveries.insert d } sid =
        db.deliveryOf? sid := KeyedTable.search_insert_of_neg (decide_eq_false (Ne.symm hs))
    rw [entitlement?, entitlement?, hother]

end Db

/-! ### The end of a transaction -/

/-- A transaction is rolled back by an error other than a duplicate key, or it comes to its end with
a database and a value that satisfy `P`, and the unique indexes are checked then. -/
def Commits {ε α : Type} (duplicate : ε) (P : Db → α → Prop) (result : Except ε (Db × α)) : Prop :=
  (∃ error, result = .error error ∧ error ≠ duplicate) ∨
    ∃ db value, P db value ∧
      result = if db.uniqueKeys then .ok (db, value) else .error duplicate

namespace Commits

variable {ε α : Type} {duplicate : ε} {P : Db → α → Prop} {result : Except ε (Db × α)}

theorem of_ok {db : Db} {value : α} (h : Commits duplicate P (.ok (db, value))) : P db value := by
  rcases h with ⟨error, h, -⟩ | ⟨db', value', hP, h⟩
  · cases h
  · split at h
    · cases h
      exact hP
    · cases h

/-- When `P` implies the unique indexes, no transaction ends in a duplicate key. -/
theorem ne_duplicate (h : Commits duplicate P result)
    (hP : ∀ db value, P db value → db.uniqueKeys) : result ≠ .error duplicate := by
  rcases h with ⟨error, rfl, hne⟩ | ⟨db, value, hdb, rfl⟩
  · simpa using hne
  · simp [hP db value hdb]

theorem mono {Q : Db → α → Prop} (h : Commits duplicate P result)
    (hPQ : ∀ db value, P db value → Q db value) : Commits duplicate Q result :=
  h.imp_right fun ⟨db, value, hdb, hresult⟩ => ⟨db, value, hPQ db value hdb, hresult⟩

theorem rolledBack {error : ε} (h : error ≠ duplicate) :
    Commits duplicate P (Except.error error : Except ε (Db × α)) := .inl ⟨error, rfl, h⟩

theorem unchanged {db : Db} {value : α} (hk : db.uniqueKeys) (hP : P db value) :
    Commits duplicate P (.ok (db, value)) := .inr ⟨db, value, hP, by simp [hk]⟩

end Commits

namespace Db

variable {α : Type} {P : Db → α → Prop} {value : α} {db : Db}

theorem commits_commitReward (h : P db value) :
    Commits (.database .uniqueViolation) P (db.commitReward value) := .inr ⟨db, value, h, rfl⟩

theorem commitReward_eq_ok (h : db.commitReward value ≠ .error (.database .uniqueViolation)) :
    db.commitReward value = .ok (db, value) := by
  unfold commitReward at h ⊢
  split at h
  · next hk => rw [if_pos hk]
  · exact absurd rfl h

theorem commitDelivery_eq_ok (h : db.commitDelivery value ≠ .error (.database .uniqueViolation)) :
    db.commitDelivery value = .ok (db, value) := by
  unfold commitDelivery at h ⊢
  split at h
  · next hk => rw [if_pos hk]
  · exact absurd rfl h

theorem commits_commitDelivery (h : P db value) :
    Commits (.database .uniqueViolation) P (db.commitDelivery value) := .inr ⟨db, value, h, rfl⟩

end Db

/-! ### One slot for each user -/

/-- The session is neither expired nor delivered. -/
def RewardSession.isOpen (reward : RewardSession) : Bool :=
  reward.status ≠ .expired && reward.status ≠ .delivered

/-- Two sessions are bound to the same user, movie, quality row and resolution. -/
def RewardSession.SameBinding (r r' : RewardSession) : Prop :=
  r'.telegramUserId = r.telegramUserId ∧ r'.movieId = r.movieId ∧
    r'.movieQualityId = r.movieQualityId ∧ r'.quality = r.quality

namespace Db

variable {db db' : Db} {copied : ℕ → ℕ → Prop}

/-- A user has one active session at most, and one open session for each binding at most. -/
structure OneSlot (db : Db) : Prop where
  slot : ∀ r ∈ db.rewardSessions, ∀ r' ∈ db.rewardSessions, r.isActive → r'.isActive →
    r'.telegramUserId = r.telegramUserId → r' = r
  binding : ∀ r ∈ db.rewardSessions, ∀ r' ∈ db.rewardSessions, r.isOpen → r'.isOpen →
    r.SameBinding r' → r' = r

/-- The unique indexes hold. -/
theorem OneSlot.uniqueKeys (h : db.OneSlot) (hdb : db.Linked) : db.uniqueKeys := by
  have hnodup : db.rewardSessions.rows.Nodup :=
    db.rewardSessions.ordered.imp fun hlt heq => hlt.ne (congrArg RewardSession.id heq)
  have hactive : db.uqRewardSessionsActiveUser := by
    refine decide_eq_true (List.Nodup.map_on ?_ (hnodup.filter _))
    intro r hr r' hr' huser
    obtain ⟨hr, hactive⟩ := List.mem_filter.1 hr
    obtain ⟨hr', hactive'⟩ := List.mem_filter.1 hr'
    exact h.slot r' hr' r hr hactive' hactive huser
  simp only [Db.uniqueKeys, hactive, uqDeliveriesRewardSession, hdb.unique, decide_true,
    Bool.and_self]

/-- A transaction that creates no session only continues sessions. -/
theorem Updates.origin (h : db.Updates copied db') (hdb : db.Sound) {r' : RewardSession}
    (hr' : r' ∈ db'.rewardSessions) : ∃ r ∈ db.rewardSessions, r.id = r'.id ∧ r.Continues r' := by
  have hfind' := KeyedTable.find?_of_mem hr'
  cases hfind : db.rewardSessions.find? r'.id with
  | none =>
      rw [h.noNew r'.id hfind] at hfind'
      cases hfind'
  | some r =>
      have he : db.entitlement? r'.id = some ⟨r, db.deliveryOf? r'.id⟩ :=
        entitlement?_eq_some.2 ⟨hfind, rfl⟩
      have hsteps := h.steps r'.id
      rw [he] at hsteps
      obtain ⟨e', he', hcontinues⟩ := hsteps.continues (hdb.wellFormed _ _ he)
      have hr'e : e'.reward = r' :=
        Option.some.inj ((entitlement?_eq_some.1 he').1.symm.trans hfind')
      exact ⟨r, KeyedTable.mem_of_find? hfind, KeyedTable.key_of_find? hfind,
        hr'e ▸ hcontinues.toContinues⟩

end Db

namespace RewardSession

variable {r r' s s' : RewardSession}

theorem Continues.isActive (h : r.Continues r') (hactive : r'.isActive) : r.isActive := by
  by_contra hnot
  rw [h.inactive (by simpa using hnot)] at hactive
  cases hactive

theorem Continues.isOpen (h : r.Continues r') (hopen : r'.isOpen) : r.isOpen := by
  simp only [RewardSession.isOpen, Bool.and_eq_true, decide_eq_true_eq] at hopen ⊢
  exact ⟨mt h.expired hopen.1, mt h.delivered hopen.2⟩

theorem SameBinding.of_continues (h : r'.SameBinding s') (hr : r.Continues r')
    (hs : s.Continues s') : r.SameBinding s := by
  obtain ⟨huser, hmovie, hrow, hquality⟩ := h
  exact ⟨by rw [← hs.telegramUserId, huser, hr.telegramUserId],
    by rw [← hs.movieId, hmovie, hr.movieId],
    by rw [← hs.movieQualityId, hrow, hr.movieQualityId],
    by rw [← hs.quality, hquality, hr.quality]⟩

/-- An open session is active or retained. -/
theorem isActive_or_retained (h : r.AvailabilityFits) (hopen : r.isOpen) :
    r.isActive ∨ (r.status = .unavailable ∨ r.status = .delivering) ∧ r.unavailableAt.isSome := by
  revert h hopen
  cases hs : r.status <;> cases hu : r.unavailableAt <;>
    simp [AvailabilityFits, RewardSession.isOpen, RewardSession.isActive, activeStatuses, hs, hu]

end RewardSession

theorem Db.OneSlot.of_updates {db db' : Db} {copied : ℕ → ℕ → Prop} (h : db.OneSlot)
    (hdb : db.Sound) (hupdates : db.Updates copied db') : db'.OneSlot := by
  constructor
  · intro r' hr' s' hs' hactive hactive' huser
    obtain ⟨r, hr, hid, hcr⟩ := hupdates.origin hdb hr'
    obtain ⟨s, hs, hid', hcs⟩ := hupdates.origin hdb hs'
    have heq : s = r := h.slot r hr s hs (hcr.isActive hactive) (hcs.isActive hactive')
      (by rw [← hcs.telegramUserId, huser, hcr.telegramUserId])
    exact db'.rewardSessions.ext_key hs' hr' (by rw [← hid, ← hid', heq])
  · intro r' hr' s' hs' hopen hopen' hbinding
    obtain ⟨r, hr, hid, hcr⟩ := hupdates.origin hdb hr'
    obtain ⟨s, hs, hid', hcs⟩ := hupdates.origin hdb hs'
    have heq : s = r := h.binding r hr s hs (hcr.isOpen hopen) (hcs.isOpen hopen')
      (hbinding.of_continues hcr hcs)
    exact db'.rewardSessions.ext_key hs' hr' (by rw [← hid, ← hid', heq])

/-! ### The transactions of the reward sessions -/

section RewardTransactions

variable {db : Db} {copied : ℕ → ℕ → Prop} {clock : Clock} {sessionId : ℕ} {telegramUserId : ℤ}

theorem withCurrent_commits {α : Type} {P : Db → α → Prop} {now : Instant}
    {body : RewardSession → RewardTransaction α}
    (h : ∀ r, db.rewardSessions.find? sessionId = some r → r.status ≠ .expired →
      r.isOverdue now = false → r.telegramUserId = telegramUserId →
        Commits (.database .uniqueViolation) P (body r)) :
    Commits (.database .uniqueViolation) P (withCurrent db sessionId telegramUserId now body) := by
  unfold withCurrent requireCurrent
  cases hr : db.rewardSessions.find? sessionId with
  | none => exact Commits.rolledBack (by simp)
  | some r =>
      by_cases hexpired : r.status = .expired
      · simpa [hexpired] using Commits.rolledBack (by simp)
      · cases hoverdue : r.isOverdue now with
        | true => simpa [hexpired, hoverdue] using Commits.rolledBack (by simp)
        | false =>
            by_cases huser : r.telegramUserId = telegramUserId
            · simpa [hexpired, hoverdue, huser] using h r hr hexpired hoverdue huser
            · simpa [hexpired, hoverdue, huser] using Commits.rolledBack (by simp)

theorem get_commits (hdb : db.Linked) (hk : db.uniqueKeys) :
    Commits (.database .uniqueViolation) (fun db' _ => db.Updates copied db')
      (get db sessionId clock) := by
  unfold get requireCurrent
  cases db.rewardSessions.find? sessionId with
  | none => exact Commits.rolledBack (by simp)
  | some r =>
      by_cases hexpired : r.status = .expired
      · simpa [hexpired] using Commits.rolledBack (by simp)
      · cases hoverdue : r.isOverdue clock.utcnow with
        | true => simpa [hexpired, hoverdue] using Commits.rolledBack (by simp)
        | false =>
            simp only [hexpired, hoverdue, if_false, Bool.false_eq_true]
            exact Commits.unchanged hk hdb.updates_refl

/-- Writing the prompt columns of a session. -/
theorem Db.Linked.updates_prompt (hdb : db.Linked) {f : RewardSession → RewardSession}
    {hf : ∀ r, (f r).id = r.id}
    (h : ∀ r, ∃ messageId claimedAt,
      f r = { r with promptMessageId := messageId, promptClaimedAt := claimedAt }) :
    db.Updates copied (db.updateReward sessionId f hf) := by
  refine hdb.updates_updateReward fun e _ => ?_
  obtain ⟨messageId, claimedAt, hr⟩ := h e.reward
  rw [hr]
  exact .single (.prompt e.reward e.delivery messageId claimedAt)

theorem claimPrompt_commits (hdb : db.Linked) (hk : db.uniqueKeys) :
    Commits (.database .uniqueViolation) (fun db' _ => db.Updates copied db')
      (claimPrompt db sessionId telegramUserId clock) := by
  refine withCurrent_commits fun r _ _ _ _ => ?_
  split
  · exact Commits.unchanged hk hdb.updates_refl
  · split
    · exact Commits.unchanged hk hdb.updates_refl
    · exact Db.commits_commitReward (hdb.updates_prompt fun r => ⟨r.promptMessageId, _, rfl⟩)

theorem completePrompt_commits (hdb : db.Linked) (hk : db.uniqueKeys) {messageId : ℕ} :
    Commits (.database .uniqueViolation) (fun db' _ => db.Updates copied db')
      (completePrompt db sessionId telegramUserId messageId clock) := by
  refine withCurrent_commits fun r _ _ _ _ => ?_
  split
  · exact Commits.unchanged hk hdb.updates_refl
  · exact Db.commits_commitReward (hdb.updates_prompt fun r => ⟨_, _, rfl⟩)

theorem resetPromptClaim_commits (hdb : db.Linked) (hk : db.uniqueKeys) :
    Commits (.database .uniqueViolation) (fun db' _ => db.Updates copied db')
      (resetPromptClaim db sessionId telegramUserId) := by
  unfold resetPromptClaim
  cases db.rewardSessions.find? sessionId with
  | none => exact Commits.unchanged hk hdb.updates_refl
  | some r =>
      dsimp only
      split
      · exact Commits.unchanged hk hdb.updates_refl
      · exact Db.commits_commitReward (hdb.updates_prompt fun r => ⟨r.promptMessageId, _, rfl⟩)

theorem markClientCompleted_commits (hdb : db.Linked) :
    Commits (.database .uniqueViolation) (fun db' _ => db.Updates copied db')
      (markClientCompleted db sessionId telegramUserId clock) := by
  refine withCurrent_commits fun r hr hexpired _ _ => ?_
  refine Db.commits_commitReward (hdb.updates_updateReward fun e he => ?_)
  have hreward : e.reward = r := Option.some.inj ((Db.entitlement?_eq_some.1 he).1.symm.trans hr)
  exact .single (.clientCompleted e.reward e.delivery clock.utcnow (hreward ▸ hexpired))

/-- Expiring the overdue sessions of a user. -/
theorem Db.Linked.updates_expireOverdue (hdb : db.Linked) (telegramUserId : ℤ) (now : Instant) :
    db.Updates copied (db.expireOverdue telegramUserId now) := by
  refine hdb.updates_rewards fun sid e _ => ?_
  unfold RewardSession.expireFor
  split
  · next h => exact .single (.expire e.reward e.delivery now (Bool.and_eq_true_iff.1 h).2)
  · exact .refl

theorem Db.mem_of_activeSession? {r : RewardSession}
    (h : db.activeSession? telegramUserId = some r) :
    r ∈ db.rewardSessions ∧ r.telegramUserId = telegramUserId ∧ r.isActive := by
  have hmem := List.argmax_mem h
  simpa using hmem

theorem markProviderConfirmed_commits (hdb : db.Linked) :
    Commits (.database .uniqueViolation) (fun db' _ => db.Updates copied db')
      (markProviderConfirmed db telegramUserId clock) := by
  have hexpire : db.Updates copied (db.expireOverdue telegramUserId clock.utcnow) :=
    hdb.updates_expireOverdue telegramUserId clock.utcnow
  unfold markProviderConfirmed
  dsimp only
  cases hr : (db.expireOverdue telegramUserId clock.utcnow).activeSession? telegramUserId with
  | none => exact Db.commits_commitReward hexpire
  | some r =>
      obtain ⟨hmem, -, hactive⟩ := Db.mem_of_activeSession? hr
      refine Db.commits_commitReward (hexpire.trans
        (hexpire.linked.updates_updateReward fun e he => ?_))
      have hreward : e.reward = r :=
        Option.some.inj ((Db.entitlement?_eq_some.1 he).1.symm.trans (KeyedTable.find?_of_mem hmem))
      exact .single (.providerConfirmed e.reward e.delivery clock.utcnow (hreward ▸ hactive))

theorem Db.Linked.updates_releaseActive (hdb : db.Linked) {active : Option RewardSession}
    (hactive : ∀ r, active = some r → r ∈ db.rewardSessions) (now : Instant) :
    db.Updates copied (db.releaseActive active now).1 := by
  unfold Db.releaseActive
  cases active with
  | none => exact hdb.updates_refl
  | some r =>
      dsimp only
      split
      · next hrewarded =>
          split
          · next reason _ =>
              refine hdb.updates_updateReward fun e he => ?_
              have hreward : e.reward = r :=
                Option.some.inj ((Db.entitlement?_eq_some.1 he).1.symm.trans
                  (KeyedTable.find?_of_mem (hactive r rfl)))
              have hready : e.reward.isReady :=
                RewardSession.isReady_iff.2 (Or.inl (hreward ▸ hrewarded))
              exact .single (.preserve e.reward e.delivery reason now hready)
          · exact hdb.updates_refl
      · exact hdb.updates_refl

/-- After a release that leaves nothing active, the user has no active session. -/
theorem Db.OneSlot.not_isActive_of_releaseActive (h : db.OneSlot) {now : Instant}
    (hnone : (db.releaseActive (db.activeSession? telegramUserId) now).2 = none) :
    ∀ r ∈ (db.releaseActive (db.activeSession? telegramUserId) now).1.rewardSessions,
      r.telegramUserId = telegramUserId → r.isActive = false := by
  intro r hr huser
  by_contra hactive
  have hactive : r.isActive := by simpa using hactive
  cases hfound : db.activeSession? telegramUserId with
  | none =>
      have hr : r ∈ db.rewardSessions := by simpa [hfound, Db.releaseActive] using hr
      have hempty := List.argmax_eq_none.1 hfound
      have hmem : r ∈ db.rewardSessions.rows.filter fun reward =>
          reward.telegramUserId = telegramUserId && reward.isActive :=
        List.mem_filter.2 ⟨hr, by simp [huser, hactive]⟩
      rw [hempty] at hmem
      cases hmem
  | some s =>
      obtain ⟨hs, hsuser, hsactive⟩ := Db.mem_of_activeSession? hfound
      rw [hfound] at hr hnone
      unfold Db.releaseActive at hr hnone
      dsimp only at hr hnone
      split at hr
      · next hrewarded =>
          split at hr
          · next reason _ =>
              have hr : r ∈ db.rewardSessions.modifyAt s.id
                  (RewardSession.preserveUnavailable reason now) (by simp) := hr
              rcases KeyedTable.mem_modifyAt.1 hr with ⟨hr, hne⟩ | ⟨s', hs', hid, rfl⟩
              · exact hne (congrArg RewardSession.id (h.slot s hs r hr hsactive hactive
                  (huser.trans hsuser.symm)))
              · simp [RewardSession.isActive, RewardSession.preserveUnavailable, activeStatuses]
                  at hactive
          · next hreason => simp [hrewarded, hreason] at hnone
      · next hrewarded => simp [hrewarded] at hnone

/-- A new session of a user without an active session and without a retained one for its binding. -/
theorem Db.OneSlot.insert (h : db.OneSlot) (hdb : db.Sound) {r : RewardSession}
    (hnew : db.rewardSessions.find? r.id = none)
    (hactive : ∀ s ∈ db.rewardSessions, s.telegramUserId = r.telegramUserId → s.isActive = false)
    (hretained : ∀ s ∈ db.rewardSessions, r.SameBinding s →
      (s.status = .unavailable ∨ s.status = .delivering) → s.unavailableAt = none) :
    Db.OneSlot { db with rewardSessions := db.rewardSessions.insert r } := by
  have hopen : ∀ s ∈ db.rewardSessions, r.SameBinding s → s.isOpen = false := by
    intro s hs hbinding
    by_contra hopen
    have he : db.entitlement? s.id = some ⟨s, db.deliveryOf? s.id⟩ :=
      Db.entitlement?_eq_some.2 ⟨KeyedTable.find?_of_mem hs, rfl⟩
    rcases RewardSession.isActive_or_retained (hdb.wellFormed _ _ he).availability
      (by simpa using hopen) with hs' | ⟨hstatus, hsome⟩
    · rw [hactive s hs hbinding.1] at hs'
      cases hs'
    · rw [hretained s hs hbinding hstatus] at hsome
      cases hsome
  constructor
  · intro s hs s' hs' hsa hsa' huser
    rcases (KeyedTable.mem_insert hnew).1 hs with rfl | hold <;>
      rcases (KeyedTable.mem_insert hnew).1 hs' with rfl | hold'
    · rfl
    · rw [hactive s' hold' huser] at hsa'
      cases hsa'
    · rw [hactive s hold huser.symm] at hsa
      cases hsa
    · exact h.slot s hold s' hold' hsa hsa' huser
  · intro s hs s' hs' hso hso' hbinding
    rcases (KeyedTable.mem_insert hnew).1 hs with rfl | hold <;>
      rcases (KeyedTable.mem_insert hnew).1 hs' with rfl | hold'
    · rfl
    · rw [hopen s' hold' hbinding] at hso'
      cases hso'
    · obtain ⟨huser, hmovie, hrow, hquality⟩ := hbinding
      rw [hopen s hold ⟨huser.symm, hmovie.symm, hrow.symm, hquality.symm⟩] at hso
      cases hso
    · exact h.binding s hold s' hold' hso hso' hbinding

theorem Db.not_retained_of_retainedSession? {movieId movieQualityId : ℕ} {quality : Str}
    (h : db.retainedSession? telegramUserId movieId movieQualityId quality = none) :
    ∀ s ∈ db.rewardSessions, s.telegramUserId = telegramUserId → s.movieId = movieId →
      s.movieQualityId = movieQualityId → s.quality.label = quality →
        (s.status = .unavailable ∨ s.status = .delivering) → s.unavailableAt = none := by
  intro s hs huser hmovie hrow hquality hstatus
  by_contra hsome
  have hempty := List.argmin_eq_none.1 h
  have hmem : s ∈ ([] : List RewardSession) := by
    rw [← hempty]
    refine List.mem_filter.2 ⟨hs, ?_⟩
    simpa [huser, hmovie, hrow, hquality, Option.isSome_iff_ne_none, hsome] using hstatus
  cases hmem

theorem getInt_eq_error {value : Option SettingValue} {error : DbError}
    (h : getInt value = .error error) : error = .typeError := by
  unfold getInt at h
  split at h <;> cases h
  rfl

/-- `get_or_create` ends in a duplicate key only when the identifier it was given is taken. -/
theorem getOrCreate_commits (hdb : db.Sound) (hslot : db.OneSlot) {movieId newId : ℕ}
    {quality : Str} :
    Commits (.database .uniqueViolation) (fun db' _ => db.Moves copied db' ∧ db'.OneSlot)
        (getOrCreate db telegramUserId movieId quality newId clock) ∨
      db.rewardSessions.find? newId ≠ none ∧
        getOrCreate db telegramUserId movieId quality newId clock =
          .error (.database .uniqueViolation) := by
  unfold getOrCreate
  cases hrow : db.archive.offeredQuality? movieId quality with
  | none => exact .inl (Commits.rolledBack (by simp))
  | some row =>
      dsimp only
      have hexpire : db.Updates copied (db.expireOverdue telegramUserId clock.utcnow) :=
        hdb.updates_expireOverdue telegramUserId clock.utcnow
      generalize db.expireOverdue telegramUserId clock.utcnow = db₁ at *
      have hdb₁ : db₁.Sound := hdb.of_moves hexpire.toMoves
      have hrelease : db₁.Updates copied
          (db₁.releaseActive (db₁.activeSession? telegramUserId) clock.utcnow).1 :=
        hdb₁.updates_releaseActive (fun r hr => (Db.mem_of_activeSession? hr).1) clock.utcnow
      -- when the active session has been released, the slot of the user is free
      have hinactive : (db₁.releaseActive (db₁.activeSession? telegramUserId) clock.utcnow).2 =
          none → ∀ r ∈ (db₁.releaseActive (db₁.activeSession? telegramUserId)
            clock.utcnow).1.rewardSessions, r.telegramUserId = telegramUserId →
              r.isActive = false := (hslot.of_updates hdb hexpire).not_isActive_of_releaseActive
      generalize db₁.releaseActive (db₁.activeSession? telegramUserId) clock.utcnow = released at *
      obtain ⟨db₂, active⟩ := released
      have hupdates : db.Updates copied db₂ := hexpire.trans hrelease
      have hdb₂ : db₂.Sound := hdb.of_moves hupdates.toMoves
      have hslot₂ : db₂.OneSlot := hslot.of_updates hdb hupdates
      dsimp only at hinactive ⊢
      cases hretained : db₂.retainedSession? telegramUserId movieId row.id quality with
      | some retained => exact .inl (Db.commits_commitReward ⟨hupdates.toMoves, hslot₂⟩)
      | none =>
          cases active with
          | some active =>
              dsimp only
              split
              · exact .inl (Db.commits_commitReward ⟨hupdates.toMoves, hslot₂⟩)
              · exact .inl (Commits.rolledBack (by simp))
          | none =>
              dsimp only
              cases hint : getInt db₂.settings.rewardSessionSeconds with
              | error error =>
                  rw [getInt_eq_error hint]
                  exact .inl (Commits.rolledBack (by simp))
              | ok ttl =>
                  dsimp only
                  cases hnew : db₂.rewardSessions.find? newId with
                  | some taken =>
                      -- the new id was taken before the transaction
                      refine .inr ⟨fun hid => ?_, by simp⟩
                      rw [hupdates.noNew newId hid] at hnew
                      cases hnew
                  | none =>
                      simp only [Option.isSome_none, Bool.false_eq_true, if_false]
                      refine .inl (Db.commits_commitReward ⟨hupdates.toMoves.trans
                        (hdb₂.moves_insertReward hnew (.single (.created _ _ _ _ _ _))),
                        hslot₂.insert hdb₂ hnew (hinactive rfl) ?_⟩)
                      -- a retained session of the film would have been answered
                      rintro s hs ⟨huser, hmovie, hrow', hquality⟩
                      refine Db.not_retained_of_retainedSession? hretained s hs huser hmovie
                        hrow' ?_
                      have hoffered := List.find?_some hrow
                      simp only [Bool.and_eq_true, decide_eq_true_eq] at hoffered
                      rw [hquality]
                      exact hoffered.1.1.2

end RewardTransactions

/-! ### The transactions of the deliveries -/

section DeliveryTransactions

variable {db : Db} {copied : ℕ → ℕ → Prop} {clock : Clock} {sessionId : ℕ}

/-- The session has claimed a send: it waited for its delivery, the rows it is bound to can be
delivered, and both rows now say that a copy is under way. -/
structure SendClaimed (db db' : Db) (sessionId : ℕ) (clock : Clock) (prepared : PreparedDelivery)
    (r : RewardSession) (d : Delivery) (movie : Movie) (row : MovieQuality) : Prop where
  reward : db.rewardSessions.find? sessionId = some r
  ready : r.isReady
  pending : d.status = .pending
  bound : db.archive.bindingReason r = none
  movieFound : db.archive.movies.find? r.movieId = some movie
  rowFound : db.archive.qualities.find? r.movieQualityId = some row
  deliveryId : prepared.deliveryId = d.id
  archiveMessageId : prepared.archiveMessageId = row.archiveMessageId
  archiveChannelId : prepared.archiveChannelId = row.archiveChannelId
  claimed : db'.entitlement? sessionId =
    some ⟨r.claimSend clock.utcnow, some (d.claimSend clock.utcnow)⟩
  archive : db'.archive = db.archive
  origin : db.deliveries.find? d.id = some d ∨
    db.deliveries.find? d.id = none ∧ d = newDelivery d.id r row
  deliveries : ∀ id, db'.deliveries.find? id =
    if id = d.id then some (d.claimSend clock.utcnow) else db.deliveries.find? id

/-- What `_prepare` does besides moving the session: a claim, or nothing to the deliveries. -/
def PrepareEffect (db db' : Db) (sessionId : ℕ) (clock : Clock) :
    PreparedDelivery ⊕ DeliveryResult → Prop
  | .inl prepared => ∃ r d movie row, SendClaimed db db' sessionId clock prepared r d movie row
  | .inr _ => db'.deliveries = db.deliveries

theorem Db.Sound.ensureDelivery (hdb : db.Sound) {r : RewardSession} {row : MovieQuality}
    (hr : db.rewardSessions.find? r.id = some r) (hready : r.isReady) :
    db.Updates copied (db.ensureDelivery r row).1 ∧
      (db.ensureDelivery r row).1.entitlement? r.id =
        some ⟨r, some (db.ensureDelivery r row).2⟩ := by
  unfold Db.ensureDelivery
  cases hd : db.deliveryOf? r.id with
  | some d => exact ⟨hdb.updates_refl, Db.entitlement?_eq_some.2 ⟨hr, hd⟩⟩
  | none =>
      have he : db.entitlement? r.id = some ⟨r, none⟩ := Db.entitlement?_eq_some.2 ⟨hr, hd⟩
      exact hdb.updates_insertDelivery he db.deliveries.find?_freshKey
        (.single (.deliveryAdded r _ row hready))

/-- The delivery of a session that waits for it is pending, so it can be claimed: the branches of
`_prepare` for a delivery in another status are not taken. -/
theorem Db.Sound.ensureDelivery_pending (hdb : db.Sound) {r : RewardSession} {row : MovieQuality}
    (hr : db.rewardSessions.find? r.id = some r) (hready : r.isReady) :
    (db.ensureDelivery r row).2.status = .pending := by
  obtain ⟨hupdates, hent⟩ : db.Updates (fun _ _ => False) (db.ensureDelivery r row).1 ∧ _ :=
    hdb.ensureDelivery hr hready
  have hwf := (hdb.of_moves hupdates.toMoves).wellFormed _ _ hent
  exact RewardSession.status_of_isReady hwf.delivery hready

/-- The delivery of a session is one of the rows, or a new one. -/
theorem Db.find?_ensureDelivery (db : Db) (r : RewardSession) (row : MovieQuality) :
    (db.deliveries.find? (db.ensureDelivery r row).2.id = some (db.ensureDelivery r row).2 ∨
      db.deliveries.find? (db.ensureDelivery r row).2.id = none ∧
        (db.ensureDelivery r row).2 = newDelivery (db.ensureDelivery r row).2.id r row) ∧
    ∀ id, (db.ensureDelivery r row).1.deliveries.find? id =
      if id = (db.ensureDelivery r row).2.id then some (db.ensureDelivery r row).2
      else db.deliveries.find? id := by
  cases hd : db.deliveryOf? r.id with
  | some d =>
      have heq : db.ensureDelivery r row = (db, d) := by simp [Db.ensureDelivery, hd]
      have hfind := KeyedTable.find?_of_mem (Db.deliveryOf?_mem hd).1
      rw [heq]
      refine ⟨.inl hfind, fun id => ?_⟩
      by_cases hid : id = d.id
      · simp [hid, hfind]
      · simp [hid]
  | none =>
      have hfresh := db.deliveries.find?_freshKey
      have heq : db.ensureDelivery r row =
          ({ db with deliveries :=
              db.deliveries.insert (newDelivery db.deliveries.freshKey r row) },
            newDelivery db.deliveries.freshKey r row) := by simp [Db.ensureDelivery, hd]
      rw [heq]
      refine ⟨.inr ⟨hfresh, rfl⟩, fun id => ?_⟩
      rw [KeyedTable.find?_insert hfresh]
      by_cases hid : (newDelivery db.deliveries.freshKey r row).id = id
      · rw [if_pos hid, if_pos hid.symm]
      · rw [if_neg hid, if_neg (Ne.symm hid)]

theorem Db.Sound.claimDelivery_commits (hdb : db.Sound) {r : RewardSession} {movie : Movie}
    {row : MovieQuality} {caption : RenderedTemplate} {deleteSeconds : ℤ}
    (hr : db.rewardSessions.find? r.id = some r) (hready : r.isReady)
    (hbound : db.archive.bindingReason r = none)
    (hmovie : db.archive.movies.find? r.movieId = some movie)
    (hrow : db.archive.qualities.find? r.movieQualityId = some row) :
    Commits (.database .uniqueViolation)
      (fun db' value => db.Updates copied db' ∧ PrepareEffect db db' r.id clock value)
      (claimDelivery db r row caption deleteSeconds clock.utcnow) := by
  obtain ⟨hupdates, hent⟩ : db.Updates copied (db.ensureDelivery r row).1 ∧ _ :=
    hdb.ensureDelivery hr hready
  have hpending : (db.ensureDelivery r row).2.status = .pending :=
    hdb.ensureDelivery_pending hr hready
  have harchive : (db.ensureDelivery r row).1.archive = db.archive := by
    unfold Db.ensureDelivery
    split <;> rfl
  have hfind := db.find?_ensureDelivery r row
  unfold claimDelivery
  generalize db.ensureDelivery r row = added at *
  obtain ⟨db₁, d⟩ := added
  simp only at hupdates hent hpending harchive hfind
  simp only [hpending, reduceCtorEq, decide_false, Bool.or_self, Bool.false_eq_true, if_false]
  refine Db.commits_commitDelivery ⟨hupdates.trans (hupdates.linked.updates_updateBoth hent
    (fun _ => rfl) (.single (.claimSend r d clock.utcnow hready ?_ ?_ ?_))), ?_⟩
  · simp [hpending]
  · simp [hpending]
  · simp [hpending]
  · refine ⟨r, d, movie, row, hr, hready, hpending, hbound, hmovie, hrow, rfl, rfl, rfl,
      Db.entitlement?_updateBoth hent fun _ => rfl, harchive, hfind.1, fun id => ?_⟩
    refine db₁.find?_deliveries_updateBoth.trans ?_
    by_cases hid : id = d.id
    · simp [hid, hfind.2]
    · simp [hid, hfind.2]

theorem prepare_commits (hdb : db.Sound) (hk : db.uniqueKeys) {render : CaptionRenderer} :
    Commits (.database .uniqueViolation)
      (fun db' value => db.Updates copied db' ∧ PrepareEffect db db' sessionId clock value)
      (prepare db render sessionId clock) := by
  unfold prepare
  dsimp only
  cases hr : db.rewardSessions.find? sessionId with
  | none => exact Commits.rolledBack (by simp)
  | some r =>
      have hid : r.id = sessionId := KeyedTable.key_of_find? hr
      subst hid
      dsimp only
      split_ifs with hdelivered hdelivering hnotReady
      · -- already delivered
        cases db.deliveryOf? r.id with
        | none => exact Commits.rolledBack (by simp)
        | some d => exact Commits.unchanged hk ⟨hdb.updates_refl, rfl⟩
      · exact Commits.unchanged hk ⟨hdb.updates_refl, rfl⟩
      · exact Commits.rolledBack (by simp)
      · have hready : r.isReady := by
          rw [RewardSession.isReady_iff]
          by_contra h
          exact hnotReady (by simpa [not_or] using h)
        have he : ∀ e, db.entitlement? r.id = some e → e.reward = r := fun e he =>
          Option.some.inj ((Db.entitlement?_eq_some.1 he).1.symm.trans hr)
        cases hreason : db.archive.bindingReason r with
        | some reason =>
            refine Db.commits_commitDelivery ⟨hdb.updates_updateReward fun e hent => ?_, rfl⟩
            exact .single (.preserve e.reward e.delivery reason clock.utcnow
              (by rw [he e hent]; exact hready))
        | none =>
            cases hmovie : db.archive.movies.find? r.movieId with
            | none => exact Commits.rolledBack (by simp)
            | some movie =>
                cases hrow : db.archive.qualities.find? r.movieQualityId with
                | none => exact Commits.rolledBack (by simp)
                | some row =>
                    dsimp only
                    split
                    · exact Commits.rolledBack (by simp)
                    · next caption hcaption =>
                        exact hdb.claimDelivery_commits hr hready hreason hmovie hrow

/-- A successful claim. -/
theorem prepare_claimed (hdb : db.Sound) (hk : db.uniqueKeys) {render : CaptionRenderer} {db' : Db}
    {prepared : PreparedDelivery}
    (h : prepare db render sessionId clock = .ok (db', .inl prepared)) :
    ∃ r d movie row, SendClaimed db db' sessionId clock prepared r d movie row := by
  have hcommits : Commits _ (fun db' value => db.Updates (fun _ _ => True) db' ∧
      PrepareEffect db db' sessionId clock value) (prepare db render sessionId clock) :=
    prepare_commits hdb hk
  rw [h] at hcommits
  exact hcommits.of_ok.2

/-- A result without a claim leaves the deliveries. -/
theorem prepare_unclaimed (hdb : db.Sound) (hk : db.uniqueKeys) {render : CaptionRenderer}
    {db' : Db} {result : DeliveryResult}
    (h : prepare db render sessionId clock = .ok (db', .inr result)) :
    db'.deliveries = db.deliveries := by
  have hcommits : Commits _ (fun db' value => db.Updates (fun _ _ => True) db' ∧
      PrepareEffect db db' sessionId clock value) (prepare db render sessionId clock) :=
    prepare_commits hdb hk
  rw [h] at hcommits
  exact hcommits.of_ok.2

theorem resetFailedSend_commits (hdb : db.Linked) {r : RewardSession} {d : Delivery}
    (he : db.entitlement? sessionId = some ⟨r, some d⟩) (hr : r.isRewarded)
    {error : Str} {reason : Option UnavailableReason} :
    Commits (.database .uniqueViolation) (fun db' _ => db.Updates copied db')
      (resetFailedSend db sessionId d.id error reason clock) := by
  obtain ⟨hreward, -⟩ := Db.entitlement?_eq_some.1 he
  have hdelivery := KeyedTable.find?_of_mem (Db.delivery_mem he rfl).1
  unfold resetFailedSend
  simp only [hreward, hdelivery]
  refine Db.commits_commitDelivery (hdb.updates_updateBoth he (fun d => ?_)
    (.single (.resetFailedSend r d reason error clock.utcnow hr)))
  unfold Delivery.resetFailedSend
  split <;> rfl

theorem finalizeSent_commits (hdb : db.Linked) (hk : db.uniqueKeys) {r : RewardSession}
    {d : Delivery} (he : db.entitlement? sessionId = some ⟨r, some d⟩) (hr : r.isRewarded)
    {messageId : ℕ} {deleteSeconds : ℤ} (hcopied : copied sessionId messageId) :
    Commits (.database .uniqueViolation) (fun db' _ => db.Updates copied db')
      (finalizeSent db sessionId d.id messageId deleteSeconds clock) := by
  obtain ⟨hreward, -⟩ := Db.entitlement?_eq_some.1 he
  have hdelivery := KeyedTable.find?_of_mem (Db.delivery_mem he rfl).1
  unfold finalizeSent
  simp only [hreward, hdelivery]
  split
  · exact Commits.unchanged hk hdb.updates_refl
  · next hsent =>
      exact Db.commits_commitDelivery (hdb.updates_updateBoth he (fun _ => rfl)
        (.single (.finalizeSent r d messageId clock.utcnow _ hr hsent hcopied)))

theorem recoverStaleSends_commits (hdb : db.Linked) {staleSeconds : ℤ} {locked : ℕ → Bool} :
    Commits (.database .uniqueViolation) (fun db' _ => db.Updates copied db')
      (recoverStaleSends db staleSeconds locked clock) := by
  unfold recoverStaleSends
  split
  · exact Commits.rolledBack (by simp)
  · refine Db.commits_commitDelivery (hdb.updates_modifyRows (fun d => ?_) fun sid e he => ?_)
    · split <;> rfl
    · obtain ⟨r, d⟩ := e
      have hid : r.id = sid := Db.reward_id he
      -- the sessions named by the released deliveries are the ones whose own delivery is released
      have hsession : sid ∈ (db.staleSends staleSeconds locked clock).map Delivery.rewardSessionId ↔
          ∃ d', d = some d' ∧
            d'.isStaleSend (clock.utcnow - seconds staleSeconds) locked := by
        obtain ⟨-, hd⟩ := Db.entitlement?_eq_some.1 he
        constructor
        · intro hmem
          obtain ⟨d', hd', rfl⟩ := List.mem_map.1 hmem
          obtain ⟨hd', hstale⟩ := List.mem_filter.1 hd'
          exact ⟨d', hd.symm.trans (hdb.deliveryOf?_eq hd'), hstale⟩
        · rintro ⟨d', rfl, hstale⟩
          obtain ⟨hd', rfl⟩ := Db.deliveryOf?_mem hd
          exact List.mem_map_of_mem (List.mem_filter.2 ⟨hd', hstale⟩)
      cases d with
      | none =>
          have hnot := mt hsession.1 (by simp)
          simpa [hid, hnot] using Relation.ReflTransGen.refl
      | some d =>
          cases hstale : d.isStaleSend (clock.utcnow - seconds staleSeconds) locked with
          | true =>
              have hmem := hsession.2 ⟨d, rfl, hstale⟩
              have hsending : d.status = .sending := by
                simp only [Delivery.isStaleSend, Bool.and_eq_true, decide_eq_true_eq] at hstale
                exact hstale.1.1
              simpa [hid, hmem, hstale] using Relation.ReflTransGen.single
                (SessionStep.recoverSend r d recoveredStaleSendingState hsending)
          | false =>
              have hnot := mt hsession.1 (by simp [hstale])
              simpa [hid, hnot, hstale] using Relation.ReflTransGen.refl

theorem recoverStaleDeletions_commits (hdb : db.Linked) {staleSeconds : ℤ} :
    Commits (.database .uniqueViolation) (fun db' _ => db.Updates copied db')
      (recoverStaleDeletions db staleSeconds clock) := by
  unfold recoverStaleDeletions
  split
  · exact Commits.rolledBack (by simp)
  · refine Db.commits_commitDelivery (hdb.updates_deliveries (fun d => ?_) fun sid r d _ => ?_)
    · unfold Delivery.recoverDeletion
      split <;> rfl
    · exact .single (.recoverDeletion r d _ clock.now)

theorem Db.mem_dueDeletions {limit : ℤ} {now : Instant} {locked : ℕ → Bool} {d : Delivery}
    (h : d ∈ db.dueDeletions limit now locked) : d ∈ db.deliveries ∧ d.isDue now locked := by
  have hmem := List.mem_of_mem_take h
  rw [List.mem_insertionSort] at hmem
  simpa using hmem

theorem claimDueDeletions_commits (hdb : db.Linked) {limit : ℤ} {locked : ℕ → Bool} :
    Commits (.database .uniqueViolation) (fun db' _ => db.Updates copied db')
      (claimDueDeletions db limit locked clock) := by
  unfold claimDueDeletions
  refine Db.commits_commitDelivery (hdb.updates_deliveries (fun d => ?_) fun sid r d he => ?_)
  · split
    · unfold Delivery.claimDeletion
      split <;> rfl
    · rfl
  · split
    · next hmem =>
        obtain ⟨d', hd', hid⟩ := List.mem_map.1 hmem
        obtain ⟨hd', hdue⟩ := Db.mem_dueDeletions hd'
        have heq : d' = d := db.deliveries.ext_key hd' (Db.delivery_mem he rfl).1 hid
        have hsent : d.status = .sent := by
          simp only [heq, Delivery.isDue, Bool.and_eq_true, decide_eq_true_eq] at hdue
          exact hdue.1.1.1
        exact .single (.claimDeletion r d clock.utcnow hsent)
    · exact .refl

/-- A worker's report moves the session whose delivery is being deleted, and no other. -/
theorem Db.Linked.updates_report (hdb : db.Linked) {deliveryId : ℕ} {g : Delivery → Delivery}
    {hg : ∀ d : Delivery, (d.whenDeleting g).id = d.id}
    (hsession : ∀ d, (g d).rewardSessionId = d.rewardSessionId)
    (hstep : ∀ sid r d, d.status = .deleting →
      SessionStep (copied sid) (some ⟨r, some d⟩) (some ⟨r, some (g d)⟩)) :
    db.Updates copied (db.updateDelivery deliveryId (Delivery.whenDeleting g) hg) := by
  refine hdb.updates_updateDelivery (fun d => ?_) fun sid r d _ _ => ?_
  · unfold Delivery.whenDeleting
    split
    · exact hsession d
    · rfl
  · unfold Delivery.whenDeleting
    split
    · next hdeleting => exact .single (hstep sid r d hdeleting)
    · exact .refl

theorem markDeleted_commits (hdb : db.Linked) {deliveryId : ℕ} :
    Commits (.database .uniqueViolation) (fun db' _ => db.Updates copied db')
      (markDeleted db deliveryId clock) :=
  Db.commits_commitDelivery (hdb.updates_report (fun _ => rfl)
    fun _ r d hd => .markDeleted r d clock.utcnow hd)

theorem markDeleteFailed_commits (hdb : db.Linked) {deliveryId : ℕ} {error : Str} :
    Commits (.database .uniqueViolation) (fun db' _ => db.Updates copied db')
      (markDeleteFailed db deliveryId error) :=
  Db.commits_commitDelivery (hdb.updates_report (fun _ => rfl)
    fun _ r d hd => .markDeleteFailed r d error hd)

theorem rescheduleDelete_commits (hdb : db.Linked) {deliveryId : ℕ} {error : Str} :
    Commits (.database .uniqueViolation) (fun db' _ => db.Updates copied db')
      (rescheduleDelete db deliveryId error clock) :=
  Db.commits_commitDelivery (hdb.updates_report (fun _ => rfl)
    fun _ r d hd => .reschedule r d error clock.utcnow hd)

end DeliveryTransactions

end CineGate
