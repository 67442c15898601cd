/-
**Every film was asked for.**

A film is sent because a reward session was delivered, a session is there because a button was
tapped, and the tap counted because the film was open in a search of the same user.  Callbacks come
from the client of the user and may carry anything; what they carry is compared with the search
session of the user, which only the searches of the user fill.  So over all handlers, workers and
crashes, every film that is sent was found by a search of the user it is sent to, picked in its
resolution, and paid for.

* `getOrCreate_answers` — the session that `get_or_create` answers with;
* `QualityTap.Chosen` — the film of a tap is one that a search of its user has found;
* `BotWorld.Asked` — the invariant;
* `BotWorld.every_film_was_asked_for` — the theorem.
-/

import CineGate.QualityTaps
import CineGate.PaidFilms
import CineGate.SearchProtocol

set_option relaxedAutoImplicit false
set_option autoImplicit false

namespace CineGate

/-! ### The session that is asked for -/

/-- No session has been added. -/
def Db.AddsNoSession (db db' : Db) : Prop :=
  ∀ r' ∈ db'.rewardSessions, ∃ r ∈ db.rewardSessions, r.id = r'.id

theorem Db.addsNoSession_modify {db : Db} {f : RewardSession → RewardSession}
    {hf : ∀ r, (f r).id = r.id} :
    db.AddsNoSession { db with rewardSessions := db.rewardSessions.modify f hf } := by
  intro r' hr'
  have hr' : r' ∈ db.rewardSessions.modify f hf := hr'
  obtain ⟨r, hr, rfl⟩ := KeyedTable.mem_modify.1 hr'
  exact ⟨r, hr, (hf r).symm⟩

theorem Db.addsNoSession_releaseActive (db : Db) (active : Option RewardSession) (now : Instant) :
    db.AddsNoSession (db.releaseActive active now).1 := by
  unfold Db.releaseActive
  split
  · split
    · split
      · exact Db.addsNoSession_modify
      · exact fun r hr => ⟨r, hr, rfl⟩
    · exact fun r hr => ⟨r, hr, rfl⟩
  · exact fun r hr => ⟨r, hr, rfl⟩

/-- The session that stays active has not been written to. -/
theorem Db.releaseActive_eq_some {db : Db} {active : Option RewardSession} {now : Instant}
    {r : RewardSession} (h : (db.releaseActive active now).2 = some r) :
    (db.releaseActive active now).1 = db ∧ active = some r := by
  unfold Db.releaseActive at h ⊢
  cases active with
  | none => cases h
  | some r₀ =>
      dsimp only at h ⊢
      split at h
      · next hrewarded =>
          split at h
          · cases h
          · cases h
            simp [hrewarded]
      · next hrewarded =>
          cases h
          simp [hrewarded]

/-- **What `get_or_create` answers**: a session of the user, of the film and of the resolution; no
other session has been added. -/
theorem getOrCreate_answers {db db' : Db} {telegramUserId : ℤ} {movieId newId : ℕ} {quality : Str}
    {clock : Clock} {view : RewardSessionView} {created : Bool}
    (h : getOrCreate db telegramUserId movieId quality newId clock = .ok (db', (view, created))) :
    ∃ r ∈ db'.rewardSessions, r.id = view.id ∧ r.telegramUserId = telegramUserId ∧
      r.movieId = movieId ∧ r.quality.label = quality ∧
        ∀ r' ∈ db'.rewardSessions, (∃ r₀ ∈ db.rewardSessions, r₀.id = r'.id) ∨ r' = r := by
  unfold getOrCreate at h
  split at h
  · cases h
  · next row hrow =>
      have hlabel : row.quality.label = quality := by
        have hfound := List.find?_some hrow
        simp only [Bool.and_eq_true, decide_eq_true_eq] at hfound
        exact hfound.1.1.2
      -- neither the expiry nor the release of an active session adds one
      have hexpired : db.AddsNoSession (db.expireOverdue telegramUserId clock.utcnow) :=
        Db.addsNoSession_modify
      generalize db.expireOverdue telegramUserId clock.utcnow = db₁ at *
      have hreleased := Db.addsNoSession_releaseActive db₁ (db₁.activeSession? telegramUserId)
        clock.utcnow
      have hactive : ∀ r, (db₁.releaseActive (db₁.activeSession? telegramUserId) clock.utcnow).2 =
          some r → r ∈ (db₁.releaseActive (db₁.activeSession? telegramUserId)
            clock.utcnow).1.rewardSessions ∧ r.telegramUserId = telegramUserId := by
        intro r hr
        obtain ⟨hsame, hr⟩ := Db.releaseActive_eq_some hr
        obtain ⟨hmem, huser, -⟩ := Db.mem_of_activeSession? hr
        exact ⟨hsame.symm ▸ hmem, huser⟩
      dsimp only at h
      generalize db₁.releaseActive (db₁.activeSession? telegramUserId) clock.utcnow = released at *
      obtain ⟨db₂, active⟩ := released
      dsimp only at h hreleased hactive
      have hold : ∀ r' ∈ db₂.rewardSessions, ∃ r₀ ∈ db.rewardSessions, r₀.id = r'.id := by
        intro r' hr'
        obtain ⟨r₁, hr₁, hid₁⟩ := hreleased r' hr'
        obtain ⟨r₀, hr₀, hid₀⟩ := hexpired r₁ hr₁
        exact ⟨r₀, hr₀, hid₀.trans hid₁⟩
      split at h
      · -- a retained session of the same film is answered again
        next retained hretained =>
          have hmem := List.argmin_mem hretained
          simp only [List.mem_filter, Bool.and_eq_true, decide_eq_true_eq] at hmem
          obtain ⟨hmem, ⟨⟨⟨⟨huser, hmovie⟩, -⟩, hquality⟩, -⟩, -⟩ := hmem
          unfold Db.commitReward at h
          split at h
          · cases h
            exact ⟨retained, hmem, rfl, huser, hmovie, hquality, fun r' hr' => .inl (hold r' hr')⟩
          · cases h
      · split at h
        · -- the active session is answered when it is for the same film, and refused otherwise
          next active =>
            split at h
            · next hsame =>
                simp only [Bool.and_eq_true, decide_eq_true_eq] at hsame
                obtain ⟨hmem, huser⟩ := hactive active rfl
                unfold Db.commitReward at h
                split at h
                · cases h
                  exact ⟨active, hmem, rfl, huser, hsame.1.1, hsame.2,
                    fun r' hr' => .inl (hold r' hr')⟩
                · cases h
            · cases h
        · split at h
          · cases h
          · next ttl _ =>
              split at h
              · cases h
              · next hfree =>
                  have hfree : db₂.rewardSessions.find? newId = none := by simpa using hfree
                  have hnew :
                      db₂.rewardSessions.find? (newRewardSession newId telegramUserId movieId row
                        clock (boundedSessionSeconds ttl)).id = none := hfree
                  unfold Db.commitReward at h
                  split at h
                  · cases h
                    -- the inserted session is the only new one
                    refine ⟨_, (KeyedTable.mem_insert hnew).2 (.inl rfl), rfl, rfl, rfl, hlabel,
                      fun r' hr' => ?_⟩
                    rcases (KeyedTable.mem_insert hnew).1 hr' with rfl | hr'
                    · exact .inr rfl
                    · exact .inl (hold r' hr')
                  · cases h

/-! ### What a search has found -/

/-- The row of a search is well shaped, and it lists what the search has found. -/
def UserSearchSession.Backed (found : List FoundFilms) (s : UserSearchSession) : Prop :=
  s.WellShaped ∧ (⟨s.telegramUserId, s.nonce, s.resultMovieIds⟩ : FoundFilms) ∈ found

/-- A write leaves a row its user, its nonce and what has been found. -/
theorem SearchCall.Writes.backed {call : SearchCall} {s s' : UserSearchSession}
    {answer : SearchAnswer}
    {found : List FoundFilms} (h : call.Writes s s' answer) (hs : s.Backed found) :
    s'.Backed found := by
  refine ⟨h.wellShaped hs.1, ?_⟩
  cases h <;> exact hs.2

namespace BotWorld

variable {w : BotWorld}

/-- What has been found stays found. -/
theorem mem_foundAfter {f : FoundFilms} (hf : f ∈ w.found) (call : SearchCall) :
    f ∈ w.foundAfter call := by
  unfold foundAfter
  split
  · exact List.mem_cons_of_mem _ hf
  · exact hf

/-- **The rows list what the searches have found**, whatever the handlers of searches call. -/
theorem backed_search (hw : ∀ s ∈ w.searches.sessions, s.Backed w.found) (handler : ℕ)
    (call : SearchCall) :
    ∀ s ∈ (w.searches.step (handler, call)).sessions, s.Backed (w.foundAfter call) := by
  have hkept : ∀ s ∈ w.searches.sessions, s.Backed (w.foundAfter call) := fun s hs =>
    ⟨(hw s hs).1, mem_foundAfter (hw s hs).2 call⟩
  intro s hs
  cases hcall : w.searches.sessions.call call with
  | error error =>
      simp only [SearchWorld.step, hcall] at hs
      exact hkept s hs
  | ok value =>
      obtain ⟨sessions, answer⟩ := value
      simp only [SearchWorld.step, hcall] at hs
      have hfind := KeyedTable.find?_of_mem hs
      -- a row is that of the user of the call, or it has been there before
      have hother : ∀ u, (∀ v, v ≠ u → sessions.find? v = w.searches.sessions.find? v) →
          s.telegramUserId ≠ u → s.Backed (w.foundAfter call) := fun u hsame hne =>
        hkept s (KeyedTable.mem_of_find? ((hsame _ hne).symm.trans hfind))
      cases SearchSessions.callStep hcall with
      | idle => exact hkept s hs
      | searched u rawQuery normalizedQuery resultMovieIds nonce replacement he hself hsame =>
          by_cases hu : s.telegramUserId = u
          · rw [hu, hself] at hfind
            cases hfind
            subst he
            refine ⟨⟨rfl, rfl⟩, ?_⟩
            simp only [foundAfter, hcall]
            exact List.mem_cons_self
          · exact hother u hsame hu
      | written s₀ s' hs₀ hwrites hself hsame =>
          by_cases hu : s.telegramUserId = call.telegramUserId
          · rw [hu, hself] at hfind
            cases hfind
            exact hwrites.backed (hkept s₀ (KeyedTable.mem_of_find? hs₀))
          · exact hother _ hsame hu

end BotWorld

/-! ### What a tap has been given -/

namespace QualityTap

/-- A search of the user of the tap, under its nonce, has found its film. -/
def Chosen (found : List FoundFilms) (tap : QualityTap) : Prop :=
  ∃ f ∈ found, f.telegramUserId = tap.telegramUserId ∧ f.nonce = tap.nonce ∧
    tap.movieId ∈ f.movieIds

/-- The session is one of the user of the tap, for what the callback carries. -/
def Fits (tap : QualityTap) (r : RewardSession) : Prop :=
  r.telegramUserId = tap.telegramUserId ∧ (r.movieId : ℤ) = tap.movieId ∧
    r.quality.label = tap.quality

/-- The handler has not asked for a session. -/
def isEarly (tap : QualityTap) : Bool :=
  match tap.phase with
  | .looking | .viewing | .configuring _ | .asking _ => true
  | _ => false

/-- What holds of every tap: once its handler has gone past the search session its film is one that
a search has found, and the session it has been given fits it. -/
structure Honest (w : BotWorld) (tap : QualityTap) : Prop where
  early : tap.isEarly → tap.session = none
  chosen : (tap.phase = .looking ∨ tap.isFinished) ∧ tap.session = none ∨ tap.Chosen w.found
  movie : ∀ movieId, tap.phase = .configuring movieId ∨ tap.phase = .asking movieId →
    (movieId : ℤ) = tap.movieId
  given : ∀ sessionId, tap.session = some sessionId →
    ∃ r, w.web.system.db.rewardSessions.find? sessionId = some r ∧ tap.Fits r

variable {w w' : BotWorld} {tap : QualityTap}

/-- It holds with what has been found and with sessions that go on. -/
theorem Honest.later (h : tap.Honest w) (hfound : ∀ f ∈ w.found, f ∈ w'.found)
    (hsessions : ∀ sessionId r, w.web.system.db.rewardSessions.find? sessionId = some r →
      ∃ r', w'.web.system.db.rewardSessions.find? sessionId = some r' ∧
        RewardSession.Continues r r') :
    tap.Honest w' := by
  refine ⟨h.early, h.chosen.imp_right ?_, h.movie, fun sessionId hsession => ?_⟩
  · rintro ⟨f, hf, hchosen⟩
    exact ⟨f, hfound f hf, hchosen⟩
  · obtain ⟨r, hr, huser, hmovie, hquality⟩ := h.given sessionId hsession
    obtain ⟨r', hr', hcontinues⟩ := hsessions sessionId r hr
    refine ⟨r', hr', hcontinues.telegramUserId.trans huser, ?_, ?_⟩
    · rw [hcontinues.movieId]
      exact hmovie
    · rw [hcontinues.quality]
      exact hquality

/-- A handler ends. -/
theorem Honest.finish (h : tap.Honest w) (result : TapResult) :
    Honest w { tap with phase := .finished result } := by
  refine ⟨by simp [isEarly], ?_, by simp, h.given⟩
  rcases h.chosen with ⟨-, hnone⟩ | hchosen
  · exact .inl ⟨.inr rfl, hnone⟩
  · exact .inr hchosen

/-- A handler that has gone past the search session goes on. -/
theorem Honest.goTo (h : tap.Honest w) (hchosen : tap.Chosen w.found) {phase : TapPhase}
    (hearly : isEarly { tap with phase } → tap.isEarly)
    (hmovie : ∀ movieId, phase = .configuring movieId ∨ phase = .asking movieId →
      (movieId : ℤ) = tap.movieId) : Honest w { tap with phase } :=
  ⟨fun he => h.early (hearly he), .inr hchosen, hmovie, h.given⟩

/-- Between the search session and its end, the film of a handler is one that a search has found. -/
theorem Honest.isChosen (h : tap.Honest w) (hlooking : tap.phase ≠ .looking)
    (hfinished : tap.isFinished = false) : tap.Chosen w.found := by
  rcases h.chosen with ⟨hphase | hphase, -⟩ | hchosen
  · exact absurd hphase hlooking
  · rw [hfinished] at hphase
    cases hphase
  · exact hchosen

theorem Honest.interrupt (h : tap.Honest w) : tap.interrupt.Honest w := by
  unfold QualityTap.interrupt
  split
  · exact h
  · exact ⟨h.early, h.chosen, h.movie, h.given⟩

theorem Honest.fail (h : tap.Honest w) : tap.fail.Honest w := by
  unfold QualityTap.fail
  split
  · exact h
  · exact h.finish .raised

theorem Honest.send (h : tap.Honest w) (answer : SendAnswer) : (tap.send answer).Honest w := by
  unfold QualityTap.send
  split
  · next sessionId messageId hphase =>
      exact h.goTo (h.isChosen (by simp [hphase]) (by simp [isFinished, hphase]))
        (by simp [isEarly])
        (by simp)
  · next sessionId hphase =>
      exact h.goTo (h.isChosen (by simp [hphase]) (by simp [isFinished, hphase]))
        (by simp [isEarly])
        (by simp)
  · exact h

/-- **The search session of the user** lets a handler on for a film that the search has found. -/
theorem look_spec (tap : QualityTap) {found : List FoundFilms} {searches : SearchSessions}
    (hrows : ∀ s ∈ searches, s.Backed found) :
    tap.look searches = .finished .stale ∨ tap.look searches = .viewing ∧ tap.Chosen found := by
  unfold look
  split
  · exact .inl rfl
  · next current hcurrent =>
      split
      · exact .inl rfl
      · next hopen =>
          simp only [ne_eq, Bool.or_eq_true, decide_eq_true_eq, not_or, Decidable.not_not] at hopen
          obtain ⟨hstate, hselected⟩ := hopen
          obtain ⟨hfind, hnonce⟩ := Option.filter_eq_some_iff.1 hcurrent
          obtain ⟨hmem, huser⟩ := KeyedTable.find?_eq_some.1 hfind
          obtain ⟨hshape, hfound⟩ := hrows current hmem
          refine .inr ⟨rfl, _, hfound, huser, by simpa using hnonce, ?_⟩
          simp only [UserSearchSession.WellShaped, hstate] at hshape
          obtain ⟨⟨movieId, hresult, hmovie⟩, -⟩ := hshape
          obtain rfl : movieId = tap.movieId := Option.some.inj (hmovie.symm.trans hselected)
          exact hresult

/-- The view of a film is that of the film. -/
theorem view_spec (tap : QualityTap) (archive : ArchiveTables) :
    tap.view archive = .finished .movieUnavailable ∨
    ∃ movieId, tap.view archive = .configuring movieId ∧ (movieId : ℤ) = tap.movieId := by
  unfold view
  split
  · exact .inl rfl
  · next view hview =>
      split
      · refine .inr ⟨view.movieId, rfl, ?_⟩
        unfold ArchiveTables.movieView at hview
        split at hview
        · cases hview
        · next hpos =>
            have hid : view.movieId = tap.movieId.toNat := by
              unfold ArchiveTables.getMovieView at hview
              split at hview
              · cases hview
              · next movie hmovie =>
                  dsimp only at hview
                  split at hview
                  · cases hview
                  · split at hview
                    · cases hview
                    · cases hview
                      have hid : movie.id = tap.movieId.toNat := KeyedTable.key_of_find? hmovie
                      exact hid
            omega
      · exact .inl rfl

end QualityTap

namespace BotWorld

variable [UnicodeData] {parser : ArchiveParser} {w : BotWorld}

/-- The state before an event and the sessions of the taps. -/
theorem continues_step (hw : w.web.system.Sound) (event : BotEvent) {sessionId : ℕ}
    {r : RewardSession} (hr : w.web.system.db.rewardSessions.find? sessionId = some r) :
    ∃ r', (w.step parser event).web.system.db.rewardSessions.find? sessionId = some r' ∧
      RewardSession.Continues r r' := by
  rcases web_step parser w event with hweb | ⟨e, -, hweb⟩
  · rw [hweb]
    exact ⟨r, hr, RewardSession.Continues.refl r⟩
  · rw [hweb]
    exact WebWorld.continues_step parser hw e hr

theorem found_step (event : BotEvent) {f : FoundFilms} (hf : f ∈ w.found) :
    f ∈ (w.step parser event).found := by
  cases event with
  | search handler call => exact mem_foundAfter hf call
  | web event => cases event <;> exact hf
  | _ => exact hf

variable (parser) in
/-- The system after a handler has asked for a session. -/
theorem system_step_asking {tap : QualityTap} (htap : tap ∈ w.taps) (hopen : tap.dropped = false)
    (newId : ℕ) (clock : Clock) {movieId : ℕ} (hphase : tap.phase = .asking movieId) :
    (w.step parser (.next tap.id newId clock)).web.system =
      World.step parser w.web.system
        (.getOrCreate tap.telegramUserId movieId tap.quality newId clock) := by
  have hemits : w.emits (.next tap.id newId clock) =
      some (.system (.getOrCreate tap.telegramUserId movieId tap.quality newId clock)) := by
    simp [emits, KeyedTable.find?_of_mem htap, hopen, QualityTap.event?, hphase]
  rw [step, hemits]
  exact WebWorld.system_step_of_emits parser rfl

/-- **Every move keeps what holds of a tap.** -/
theorem honest_step (hw : w.web.system.Sound) (hrows : ∀ s ∈ w.searches.sessions, s.Backed w.found)
    {event : BotEvent} {tap tap' : QualityTap} (htap : tap ∈ w.taps) (h : tap.Honest w)
    (hstep : TapStep w event tap tap') : tap'.Honest (w.step parser event) := by
  have hlater : tap.Honest (w.step parser event) :=
    h.later (fun f hf => found_step event hf) fun _ _ hr => continues_step hw event hr
  cases hstep with
  | idle => exact hlater
  | sent answer => exact hlater.send answer
  | failed => exact hlater.fail
  | dropped => exact hlater.interrupt
  | moved newId clock hopen he =>
      subst he
      have hchosen : tap.phase ≠ .looking → tap.isFinished = false → tap.Chosen _ := hlater.isChosen
      unfold QualityTap.next
      split
      · next hphase =>
          -- the film is one of those the search has found, or the tap is stale
          rcases tap.look_spec hrows with hlook | ⟨hlook, f, hf, hfilm⟩
          · rw [hlook]
            exact hlater.finish .stale
          · rw [hlook]
            exact hlater.goTo ⟨f, found_step _ hf, hfilm⟩ (by simp [QualityTap.isEarly, hphase])
              (by simp)
      · next hphase =>
          rcases tap.view_spec w.web.system.db.archive with hview | ⟨movieId, hview, hmovie⟩
          · rw [hview]
            exact hlater.finish .movieUnavailable
          · rw [hview]
            refine hlater.goTo
              (hchosen (by simp [hphase]) (by simp [QualityTap.isFinished, hphase]))
              (by simp [QualityTap.isEarly, hphase]) ?_
            rintro movieId' (hsame | hsame) <;> cases hsame
            exact hmovie
      · next movieId hphase =>
          split
          · refine hlater.goTo
              (hchosen (by simp [hphase]) (by simp [QualityTap.isFinished, hphase]))
              (by simp [QualityTap.isEarly, hphase]) ?_
            rintro movieId' (hsame | hsame) <;> cases hsame
            exact h.movie movieId (.inl hphase)
          · exact hlater.finish .rewardNotConfigured
      · next movieId hphase =>
          -- the tap asks for the session in the transaction the system makes
          have hsystem := system_step_asking parser htap hopen newId clock hphase
          unfold QualityTap.ask
          split
          · next db' view created hask =>
              obtain ⟨r, hr, hid, huser, hmovie, hquality, -⟩ := getOrCreate_answers hask
              refine ⟨by simp [QualityTap.isEarly],
                .inr (hchosen (by simp [hphase]) (by simp [QualityTap.isFinished, hphase])),
                by simp, fun sessionId hsession => ?_⟩
              cases hsession
              refine ⟨r, ?_, huser, ?_, hquality⟩
              · rw [hsystem]
                simp only [World.step, World.commit, hask]
                exact hid ▸ KeyedTable.find?_of_mem hr
              · rw [hmovie]
                exact h.movie movieId (.inr hphase)
          · exact hlater.finish _
          · exact hlater.finish _
          · exact hlater.finish _
      · next sessionId hphase =>
          split
          · exact hlater.goTo (hchosen (by simp [hphase]) (by simp [QualityTap.isFinished, hphase]))
              (by simp [QualityTap.isEarly]) (by simp)
          · exact hlater.finish _
          · exact hlater.finish _
      · next sessionId messageId hphase =>
          split
          · exact hlater.finish _
          · exact hlater.finish _
          · exact hlater.finish _
      · exact hlater.finish _
      · exact hlater

omit [UnicodeData] in
/-- A tap that comes in has been given nothing. -/
theorem honest_of_comes {tap : QualityTap} (hsession : tap.session = none)
    (hphase : tap.phase = .looking ∨ tap.phase = .finished .limited) : tap.Honest w := by
  refine ⟨fun _ => hsession,
    .inl ⟨hphase.imp_right fun h => by simp [QualityTap.isFinished, h], hsession⟩,
    ?_, by simp [hsession]⟩
  rintro movieId (h | h) <;> simp [h] at hphase

/-- A session that a tap has been given stays with it. -/
theorem session_stays {event : BotEvent} {tap tap' : QualityTap} (h : tap.Honest w)
    (hstep : TapStep w event tap tap') {sessionId : ℕ} (hsession : tap.session = some sessionId) :
    tap'.session = some sessionId := by
  cases hstep with
  | idle => exact hsession
  | sent answer =>
      unfold QualityTap.send
      split <;> exact hsession
  | failed =>
      unfold QualityTap.fail
      split <;> exact hsession
  | dropped =>
      unfold QualityTap.interrupt
      split <;> exact hsession
  | moved newId clock hopen he =>
      unfold QualityTap.next
      split
      · exact hsession
      · exact hsession
      · exact hsession
      · next movieId hphase =>
          -- a handler that asks has been given nothing yet
          have hnone := h.early (by simp [QualityTap.isEarly, hphase])
          rw [hnone] at hsession
          cases hsession
      · exact hsession
      · exact hsession
      · exact hsession
      · exact hsession

variable (parser) in
/-- A tap whose handler goes on is among the taps. -/
theorem mem_taps_next {tap : QualityTap} (htap : tap ∈ w.taps) (hopen : tap.dropped = false)
    (newId : ℕ) (clock : Clock) :
    tap.next w.searches.sessions w.web.system.db w.publicBaseUrl w.adsgramBlockId newId clock ∈
      (w.step parser (.next tap.id newId clock)).taps := by
  have hgoOn : tap.goOn (fun tap => tap.next w.searches.sessions w.web.system.db w.publicBaseUrl
      w.adsgramBlockId newId clock) = tap.next w.searches.sessions w.web.system.db w.publicBaseUrl
        w.adsgramBlockId newId clock := by
    simp [QualityTap.goOn, hopen]
  simp only [step, advance, updateTap]
  exact KeyedTable.mem_modifyAt.2 (.inr ⟨tap, htap, rfl, hgoOn⟩)

end BotWorld

/-- The handlers of the endpoints ask for no sessions. -/
theorem WebWorld.emits_getOrCreate {w : WebWorld} {event : WebEvent} {telegramUserId : ℤ}
    {movieId newId : ℕ} {quality : Str} {clock : Clock}
    (h : w.emits event = some (.getOrCreate telegramUserId movieId quality newId clock)) :
    event = .system (.getOrCreate telegramUserId movieId quality newId clock) := by
  cases event with
  | transact requestId clock' render =>
      obtain ⟨q, -, hevent⟩ := Option.bind_eq_some_iff.1 h
      split at hevent
      · cases hevent
      · unfold RewardRequest.event? at hevent
        split at hevent <;> cases hevent
  | copied requestId answer =>
      obtain ⟨q, -, hevent⟩ := Option.bind_eq_some_iff.1 h
      split at hevent <;> cases hevent
  | system event =>
      simp only [WebWorld.emits] at h
      split at h
      · cases h
      · rw [Option.some.inj h]
  | _ => cases h

namespace BotWorld

variable [UnicodeData] {parser : ArchiveParser} {w : BotWorld}

omit [UnicodeData] in
/-- The handlers of taps alone ask for sessions. -/
theorem emits_getOrCreate {event : BotEvent} {telegramUserId : ℤ} {movieId newId : ℕ}
    {quality : Str} {clock : Clock}
    (h : w.emits event = some (.system (.getOrCreate telegramUserId movieId quality newId clock))) :
    ∃ tap ∈ w.taps, tap.dropped = false ∧ tap.phase = .asking movieId ∧
      event = .next tap.id newId clock := by
  cases event with
  | web event =>
      simp only [emits] at h
      split at h
      · cases h
      · next htap =>
          cases h
          exact absurd rfl htap
  | next tapId newId' clock' =>
      obtain ⟨tap, hfind, hevent⟩ := Option.bind_eq_some_iff.1 h
      obtain ⟨htap, rfl⟩ := KeyedTable.find?_eq_some.1 hfind
      split at hevent
      · cases hevent
      · next hopen =>
          obtain ⟨e, he, hsystem⟩ := Option.map_eq_some_iff.1 hevent
          obtain rfl := WebEvent.system.inj hsystem
          unfold QualityTap.event? at he
          split at he <;> cases he
          next hphase => exact ⟨tap, htap, by simpa using hopen, hphase, rfl⟩
  | _ => cases h

/-- **A session after an event** has been there before, or a tap has just been given it. -/
theorem session_origin (hw : w.web.system.Sound) (event : BotEvent) {r : RewardSession}
    (hr : r ∈ (w.step parser event).web.system.db.rewardSessions) :
    (∃ r₀ ∈ w.web.system.db.rewardSessions, r₀.id = r.id) ∨
      ∃ tap ∈ (w.step parser event).taps, tap.session = some r.id := by
  have hkept : (w.step parser event).web.system = w.web.system →
      (∃ r₀ ∈ w.web.system.db.rewardSessions, r₀.id = r.id) ∨
        ∃ tap ∈ (w.step parser event).taps, tap.session = some r.id := fun hsame =>
    .inl ⟨r, hsame ▸ hr, rfl⟩
  rcases web_step parser w event with hweb | ⟨e, hemits, hweb⟩
  · exact hkept (congrArg WebWorld.system hweb)
  · rcases WebWorld.system_step parser w.web e with hsystem | ⟨e', hemits', hsystem⟩
    · exact hkept ((congrArg WebWorld.system hweb).trans hsystem)
    · have hstep := (congrArg WebWorld.system hweb).trans hsystem
      have hfind := KeyedTable.find?_of_mem hr
      rw [hstep] at hfind hr
      rcases hw.session_step_origin hfind with ⟨r₀, hr₀, -⟩ | ⟨-, telegramUserId, clock, rfl⟩
      · exact .inl ⟨r₀, KeyedTable.mem_of_find? hr₀, KeyedTable.key_of_find? hr₀⟩
      · obtain rfl := WebWorld.emits_getOrCreate hemits'
        obtain ⟨tap, htap, hopen, hphase, rfl⟩ := emits_getOrCreate hemits
        have hmem := mem_taps_next parser htap hopen r.id clock
        rw [system_step_asking parser htap hopen r.id clock hphase] at hstep
        rw [← hstep] at hr
        cases hask : getOrCreate w.web.system.db tap.telegramUserId r.movieId tap.quality r.id
          clock with
        | error error =>
            simp only [World.step, World.commit, hask] at hr
            exact .inl ⟨r, hr, rfl⟩
        | ok value =>
            obtain ⟨db', view, created⟩ := value
            simp only [World.step, World.commit, hask] at hr
            obtain ⟨r', -, hid, -, -, -, honly⟩ := getOrCreate_answers hask
            rcases honly r hr with hold | rfl
            · exact .inl hold
            · refine .inr ⟨_, hmem, ?_⟩
              simp only [QualityTap.next, hphase, QualityTap.ask, hask]
              exact congrArg some hid.symm

/-! ### The invariant -/

/-- Every film is paid for, every row of a search lists what the search has found, and every session
has been given to a tap that fits it. -/
structure Asked (w : BotWorld) : Prop where
  paid : w.web.Paid
  rows : ∀ s ∈ w.searches.sessions, s.Backed w.found
  taps : ∀ tap ∈ w.taps, tap.Honest w
  asked : ∀ r ∈ w.web.system.db.rewardSessions, ∃ tap ∈ w.taps, tap.session = some r.id

omit [UnicodeData] in
theorem initial_asked (web : WebSettings) (settings : Settings) (archive : ArchiveTables) :
    (initial web settings archive).Asked :=
  ⟨WebWorld.initial_paid web settings archive, by rintro s ⟨⟩, by rintro tap ⟨⟩, by rintro r ⟨⟩⟩

/-- The rows of the searches after an event. -/
theorem rows_step (hw : w.Asked) (event : BotEvent) :
    ∀ s ∈ (w.step parser event).searches.sessions, s.Backed (w.step parser event).found := by
  cases event with
  | search handler call => exact backed_search hw.rows handler call
  | web event => cases event <;> exact hw.rows
  | _ => exact hw.rows

/-- **Every event keeps the invariant.** -/
theorem Asked.step (hw : w.Asked) (event : BotEvent) : (w.step parser event).Asked := by
  have htaps : TapsStep w event (w.step parser event).taps := tapsStep w event
  have hsound := hw.paid.sound
  refine ⟨?_, rows_step hw event, fun tap' htap' => ?_, fun r hr => ?_⟩
  · rcases web_step parser w event with hweb | ⟨e, -, hweb⟩
    · rw [hweb]
      exact hw.paid
    · rw [hweb]
      exact hw.paid.step e
  · rcases htaps.comes tap' htap' with ⟨tap, htap, hstep⟩ | ⟨hsession, hphase⟩
    · exact honest_step hsound hw.rows htap (hw.taps tap htap) hstep
    · exact honest_of_comes hsession hphase
  · rcases session_origin hsound event hr with ⟨r₀, hr₀, hid⟩ | hnew
    · obtain ⟨tap, htap, hsession⟩ := hw.asked r₀ hr₀
      obtain ⟨tap', htap', hstep⟩ := htaps.goes tap htap
      exact ⟨tap', htap', hid ▸ session_stays (hw.taps tap htap) hstep hsession⟩
    · exact hnew

/-! ### The theorem -/

/-- A tap has been given the session: it was its user who picked its film, in its resolution, among
the films that a search of the user has found. -/
def Picked (w : BotWorld) (r : RewardSession) : Prop :=
  ∃ tap ∈ w.taps, tap.session = some r.id ∧ tap.Fits r ∧ tap.Chosen w.found

/-- Every film is paid for, and every session, and with it every film that Telegram is asked for, is
one that its user has picked. -/
structure AskedFor (w : BotWorld) : Prop where
  paid : w.web.PaidFor
  sessions : ∀ r ∈ w.web.system.db.rewardSessions, w.Picked r
  attempts : ∀ a ∈ w.web.system.attempts, ∃ r ∈ w.web.system.db.rewardSessions,
    r.id = a.sessionId ∧ r.telegramUserId = a.prepared.telegramUserId ∧ w.Picked r

omit [UnicodeData] in
theorem Asked.picked (hw : w.Asked) {r : RewardSession} (hr : r ∈ w.web.system.db.rewardSessions) :
    w.Picked r := by
  obtain ⟨tap, htap, hsession⟩ := hw.asked r hr
  have hhonest := hw.taps tap htap
  obtain ⟨r', hr', hfits⟩ := hhonest.given r.id hsession
  obtain rfl : r' = r := Option.some.inj (hr'.symm.trans (KeyedTable.find?_of_mem hr))
  refine ⟨tap, htap, hsession, hfits, ?_⟩
  rcases hhonest.chosen with ⟨-, hnone⟩ | hchosen
  · rw [hnone] at hsession
    cases hsession
  · exact hchosen

omit [UnicodeData] in
/-- **The invariant answers for the films.** -/
theorem Asked.askedFor (hw : w.Asked) : w.AskedFor := by
  refine ⟨hw.paid.paidFor, fun r hr => hw.picked hr, fun a ha => ?_⟩
  obtain ⟨r, hr, huser⟩ := hw.paid.addressed a ha
  have hmem := KeyedTable.mem_of_find? hr
  exact ⟨r, hmem, KeyedTable.key_of_find? hr, huser.symm, hw.picked hmem⟩

/-- **Every film was asked for.**  Whatever callbacks, searches and requests come in, in whatever
order their handlers and the rest of the application run, and wherever the database fails or a crash
hits them, every film that Telegram has been asked for goes to a user who has paid for it and has
picked it, in its resolution, among the films that a search of this user has found. -/
theorem every_film_was_asked_for (parser : ArchiveParser) (web : WebSettings) (settings : Settings)
    (archive : ArchiveTables) (events : List BotEvent) :
    ((initial web settings archive).after parser events).AskedFor :=
  Asked.askedFor <|
    Transition.run_invariant (fun _ event hw => hw.step event)
      (initial_asked web settings archive) events

end BotWorld

section Example

open BotWorld

attribute [local instance] UnicodeData.asciiArabic

/-- User 5 searches, opens film 1 of the two found and picks it.  A tap on film 2, which is not
open, a tap of user 6 and a resolution that the film does not have get nowhere; a second tap finds
the prompt sent. -/
example :
    let web : WebSettings := {
      parseInitData := fun _ => none
      adsgramCallbackSecret := none
      rewardClaim := {
        limit := 20, windowSeconds := 60, maxKeys := 100
        limit_pos := by decide, windowSeconds_pos := by decide, maxKeys_pos := by decide } }
    let next (tapId : ℕ) : BotEvent := .next tapId 40 (World.atSecond 0)
    (((initial web {} World.oneFile).after {} [
      .configure (some "https://x/".toList) (some "b".toList),
      .search 1 (.replace 5 [] [] [1, 2] ['n']), .search 1 (.claimMovie 5 ['n'] 1 true),
      .search 1 (.completeMovie 5 ['n'] 1 77),
      .tap 5 ['n'] 2 "720p".toList true, next 1,
      .tap 6 ['n'] 1 "720p".toList true, next 2,
      .tap 5 ['n'] 1 "999p".toList true, next 3, next 3,
      .tap 5 ['n'] 1 "720p".toList true, next 4, next 4, next 4, next 4, next 4,
      .sent 4 (.sent 901), next 4,
      .tap 5 ['n'] 1 "720p".toList true, next 5, next 5, next 5, next 5,
      next 5]).taps.rows.map fun tap => (tap.phase, tap.session)) =
      [(.finished .stale, none), (.finished .stale, none), (.finished .movieUnavailable, none),
        (.finished (.prompted 901), some 40), (.finished .alreadyPrepared, some 40)] := by
  decide +kernel

end Example

end CineGate
