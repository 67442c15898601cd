/-
**The protocol of the search sessions.**

The handlers of a user's searches take turns: `claim_movie` and `claim_back` grant a claim, and
until it is completed or reset no other claim of the same nonce is granted.  A call of an earlier
search changes nothing, since it carries the nonce of that search.

* `SearchCall.Writes`, `SearchWorld.CallStep` — what a call can do to the row of its user;
* `UserSearchSession.WellShaped` — the fields of a row in each of its states;
* `SearchWorld.Sound` — the invariant: an open claim of the current nonce is reflected by the state
  of the row;
* `SearchWorld.search_session_protocol` — along any run with fresh nonces, stale calls change
  nothing, the claims of a nonce exclude each other, and every row is well shaped.
-/

import CineGate.SearchSessions
import CineGate.Transition

set_option relaxedAutoImplicit false
set_option autoImplicit false

namespace CineGate

namespace UserSearchSession

/-- The fields of a row in each of its states. -/
def WellShaped (s : UserSearchSession) : Prop :=
  match s.state with
  | .results => s.selectedMovieId = none ∧ s.posterMessageId = none
  | .opening => (∃ movieId ∈ s.resultMovieIds, s.selectedMovieId = some movieId) ∧
      s.posterMessageId = none
  | .movie | .returning => (∃ movieId ∈ s.resultMovieIds, s.selectedMovieId = some movieId) ∧
      s.posterMessageId.isSome ∧ s.resultMessageId = none

/-- The row is in the state in which a claim for the purpose leaves it. -/
def Holds (s : UserSearchSession) : ClaimPurpose → Prop
  | .movie movieId => s.state = .opening ∧ s.selectedMovieId = some movieId
  | .back => s.state = .returning

theorem isAt_eq_true {s : UserSearchSession} {nonce : Str} {state : SearchState} :
    s.isAt nonce state = true ↔ s.nonce = nonce ∧ s.state = state := by
  simp [isAt]

/-- A row that has been restarted is that of a first search. -/
theorem restart_eq_ofSearch {s : UserSearchSession} {nonce rawQuery normalizedQuery : Str}
    {resultMovieIds : List ℤ} : s.restart nonce rawQuery normalizedQuery resultMovieIds =
      ofSearch s.telegramUserId nonce rawQuery normalizedQuery resultMovieIds := rfl

end UserSearchSession

/-! ### What a call does -/

/-- What a call writes to a row that it finds in the state it asks for. -/
inductive SearchCall.Writes :
    SearchCall → UserSearchSession → UserSearchSession → SearchAnswer → Prop
  | setResultMessage {s : UserSearchSession} {u : ℤ} (messageId : ℤ) (hstate : s.state = .results) :
      Writes (.setResultMessage u s.nonce messageId) s { s with resultMessageId := some messageId }
        (.changed true)
  | claimMovie {s : UserSearchSession} {u : ℤ} {movieId : ℤ} (hstate : s.state = .results)
      (hmem : movieId ∈ s.resultMovieIds) :
      Writes (.claimMovie u s.nonce movieId true) s
        { s with state := .opening, selectedMovieId := some movieId }
        (.claimed (some { s with state := .opening, selectedMovieId := some movieId }))
  | completeMovie {s : UserSearchSession} {u : ℤ} {movieId : ℤ} (posterMessageId : ℤ)
      (hholds : s.Holds (.movie movieId)) :
      Writes (.completeMovie u s.nonce movieId posterMessageId) s
        { s with
          state := .movie
          posterMessageId := some posterMessageId
          resultMessageId := none } (.changed true)
  | resetOpening {s : UserSearchSession} {u : ℤ} {movieId : ℤ} (hholds : s.Holds (.movie movieId)) :
      Writes (.resetOpening u s.nonce movieId) s
        { s with state := .results, selectedMovieId := none } (.changed true)
  | claimBack {s : UserSearchSession} {u : ℤ} (hstate : s.state = .movie) :
      Writes (.claimBack u s.nonce) s { s with state := .returning }
        (.claimed (some { s with state := .returning }))
  | completeBack {s : UserSearchSession} {u : ℤ} (resultMessageId : ℤ) (hholds : s.Holds .back) :
      Writes (.completeBack u s.nonce resultMessageId) s
        { s with
          state := .results
          selectedMovieId := none
          resultMessageId := some resultMessageId
          posterMessageId := none } (.changed true)
  | resetReturning {s : UserSearchSession} {u : ℤ} (hholds : s.Holds .back) :
      Writes (.resetReturning u s.nonce) s { s with state := .movie } (.changed true)

namespace SearchCall.Writes

variable {call : SearchCall} {s s' : UserSearchSession} {answer : SearchAnswer}

theorem nonce? (h : call.Writes s s' answer) : call.nonce? = some s.nonce := by
  cases h <;> rfl

theorem nonce (h : call.Writes s s' answer) : s'.nonce = s.nonce := by
  cases h <;> rfl

/-- A write keeps a row well shaped. -/
theorem wellShaped (h : call.Writes s s' answer) (hs : s.WellShaped) : s'.WellShaped := by
  cases h with
  | setResultMessage messageId hstate =>
      simpa [UserSearchSession.WellShaped, hstate] using hs
  | claimMovie hstate hmem =>
      simp only [UserSearchSession.WellShaped, hstate] at hs
      exact ⟨⟨_, hmem, rfl⟩, hs.2⟩
  | completeMovie posterMessageId hholds =>
      simp only [UserSearchSession.WellShaped, hholds.1] at hs
      exact ⟨hs.1, rfl, rfl⟩
  | resetOpening hholds =>
      simp only [UserSearchSession.WellShaped, hholds.1] at hs
      exact ⟨rfl, hs.2⟩
  | claimBack hstate =>
      simp only [UserSearchSession.WellShaped, hstate] at hs
      exact hs
  | completeBack resultMessageId hholds => exact ⟨rfl, rfl⟩
  | resetReturning hholds =>
      simp only [UserSearchSession.WellShaped, show s.state = .returning from hholds] at hs
      exact hs

end SearchCall.Writes

/-- What a call can do: it leaves the table alone, or it gives its user a new search, or it writes
to the row of its user. -/
inductive SearchSessions.CallStep (t : SearchSessions) (call : SearchCall) :
    SearchSessions → SearchAnswer → Prop
  | idle {answer : SearchAnswer} (hcall : call.nonce?.isSome)
      (hanswer : answer = .claimed none ∨ answer = .changed false) : CallStep t call t answer
  | searched {t' : SearchSessions} (u : ℤ) (rawQuery normalizedQuery : Str)
      (resultMovieIds : List ℤ) (nonce : Str) (replacement : SearchSessionReplacement)
      (hcall : call = .replace u rawQuery normalizedQuery resultMovieIds nonce)
      (hself : t'.find? u =
        some (.ofSearch u nonce rawQuery normalizedQuery resultMovieIds))
      (hother : ∀ v, v ≠ u → t'.find? v = t.find? v) :
      CallStep t call t' (.replaced replacement)
  | written {t' : SearchSessions} {answer : SearchAnswer} (s s' : UserSearchSession)
      (hfind : t.find? call.telegramUserId = some s) (hwrites : call.Writes s s' answer)
      (hself : t'.find? call.telegramUserId = some s')
      (hother : ∀ v, v ≠ call.telegramUserId → t'.find? v = t.find? v) : CallStep t call t' answer

namespace SearchSessions

variable {t t' : SearchSessions}

/-- A call that changes the row of its user by `f`. -/
theorem callStep_modifyAt {call : SearchCall} {s : UserSearchSession}
    {f : UserSearchSession → UserSearchSession}
    {hf : ∀ s, (f s).telegramUserId = s.telegramUserId} {answer : SearchAnswer}
    (hfind : t.find? call.telegramUserId = some s) (hwrites : call.Writes s (f s) answer) :
    t.CallStep call (t.modifyAt call.telegramUserId f hf) answer := by
  refine .written s (f s) hfind hwrites ?_ fun v hv => ?_
  · rw [KeyedTable.find?_modifyAt_self, hfind]
    rfl
  · exact KeyedTable.find?_modifyAt_of_ne t f hf hv

/-- An `UPDATE` writes to a row that the guard selects, or to none. -/
theorem callStep_updateWhere {call : SearchCall} {params : List ℤ}
    {guard : UserSearchSession → Bool} {f : UserSearchSession → UserSearchSession}
    {hf : ∀ s, (f s).telegramUserId = s.telegramUserId} {answer : SearchAnswer}
    (hnonce : call.nonce?.isSome)
    (hwrites : ∀ s, guard s = true → call.Writes s (f s) (.changed true))
    (h : (t.updateWhere params call.telegramUserId guard f hf).map (Prod.map id .changed) =
      .ok (t', answer)) : t.CallStep call t' answer := by
  unfold updateWhere at h
  split at h
  · cases h
  · split at h
    · cases h
      exact .idle hnonce (.inr rfl)
    · next s hfind =>
        split at h
        · next hguard =>
            cases h
            exact callStep_modifyAt hfind (hwrites s hguard)
        · cases h
          exact .idle hnonce (.inr rfl)

/-- A new search leaves the same row, whether its user has searched before or not. -/
theorem callStep_replace {u : ℤ} {rawQuery normalizedQuery : Str} {resultMovieIds : List ℤ}
    {nonce : Str} {answer : SearchAnswer}
    (h : t.call (.replace u rawQuery normalizedQuery resultMovieIds nonce) = .ok (t', answer)) :
    t.CallStep (.replace u rawQuery normalizedQuery resultMovieIds nonce) t' answer := by
  simp only [SearchSessions.call, replace] at h
  split at h
  · cases h
  · split at h
    · next hfind =>
        split at h
        · cases h
        · cases h
          have hnew : t.find? (UserSearchSession.telegramUserId
              (.ofSearch u nonce rawQuery normalizedQuery resultMovieIds)) = none := hfind
          refine .searched u rawQuery normalizedQuery resultMovieIds nonce _ rfl ?_ fun v hv => ?_
          · exact KeyedTable.find?_insert_self hnew
          · rw [id, KeyedTable.find?_insert hnew, if_neg fun h => hv h.symm]
    · next current hfind =>
        split at h
        · cases h
        · cases h
          refine .searched u rawQuery normalizedQuery resultMovieIds nonce _ rfl ?_ fun v hv => ?_
          · -- the restarted row keeps nothing of the old search but its key
            obtain rfl : current.telegramUserId = u := KeyedTable.key_of_find? hfind
            rw [id, KeyedTable.find?_modifyAt_self, hfind, Option.map_some,
              UserSearchSession.restart_eq_ofSearch]
          · rw [id, KeyedTable.find?_modifyAt_of_ne _ _ _ hv]

/-- **What a call does to the table.** -/
theorem callStep {call : SearchCall} {answer : SearchAnswer} (h : t.call call = .ok (t', answer)) :
    t.CallStep call t' answer := by
  cases call with
  | replace u rawQuery normalizedQuery resultMovieIds nonce => exact callStep_replace h
  | setResultMessage u nonce messageId =>
      refine callStep_updateWhere rfl (fun s hguard => ?_) h
      obtain ⟨rfl, hstate⟩ := UserSearchSession.isAt_eq_true.1 hguard
      exact .setResultMessage messageId hstate
  | claimMovie u nonce movieId movieExists =>
      simp only [SearchSessions.call, claimMovie] at h
      split at h
      · cases h
      · split at h
        · cases h
          exact .idle rfl (.inl rfl)
        · next s hfind =>
            split at h
            · cases h
              exact .idle rfl (.inl rfl)
            · next hguard =>
                simp only [ne_eq, Bool.or_eq_true, decide_eq_true_eq, Bool.not_eq_true', not_or,
                  Decidable.not_not, Bool.not_eq_false, List.contains_iff_mem] at hguard
                obtain ⟨⟨rfl, hstate⟩, hmem⟩ := hguard
                split at h
                -- the claim is refused when the foreign key finds no such movie
                · cases h
                · split at h
                  · cases h
                  · next hexists =>
                      obtain rfl : movieExists = true := by simpa using hexists
                      cases h
                      exact callStep_modifyAt hfind (.claimMovie hstate hmem)
  | completeMovie u nonce movieId posterMessageId =>
      refine callStep_updateWhere rfl (fun s hguard => ?_) h
      obtain ⟨hguard, hselected⟩ := Bool.and_eq_true_iff.1 hguard
      obtain ⟨rfl, hstate⟩ := UserSearchSession.isAt_eq_true.1 hguard
      exact .completeMovie posterMessageId ⟨hstate, by simpa using hselected⟩
  | resetOpening u nonce movieId =>
      refine callStep_updateWhere rfl (fun s hguard => ?_) h
      obtain ⟨hguard, hselected⟩ := Bool.and_eq_true_iff.1 hguard
      obtain ⟨rfl, hstate⟩ := UserSearchSession.isAt_eq_true.1 hguard
      exact .resetOpening ⟨hstate, by simpa using hselected⟩
  | claimBack u nonce =>
      simp only [SearchSessions.call, claimBack] at h
      split at h
      · cases h
      · split at h
        · cases h
          exact .idle rfl (.inl rfl)
        · next s hfind =>
            split at h
            · cases h
              exact .idle rfl (.inl rfl)
            · next hguard =>
                simp only [ne_eq, Bool.or_eq_true, decide_eq_true_eq, not_or,
                  Decidable.not_not] at hguard
                obtain ⟨rfl, hstate⟩ := hguard
                cases h
                exact callStep_modifyAt hfind (.claimBack hstate)
  | completeBack u nonce resultMessageId =>
      refine callStep_updateWhere rfl (fun s hguard => ?_) h
      obtain ⟨rfl, hstate⟩ := UserSearchSession.isAt_eq_true.1 hguard
      exact .completeBack resultMessageId hstate
  | resetReturning u nonce =>
      refine callStep_updateWhere rfl (fun s hguard => ?_) h
      obtain ⟨rfl, hstate⟩ := UserSearchSession.isAt_eq_true.1 hguard
      exact .resetReturning hstate

end SearchSessions

/-! ### The invariant -/

namespace SearchCall.Writes

variable {call : SearchCall} {s s' : UserSearchSession} {answer : SearchAnswer}

/-- The open claims after a write: a claim is granted on a row without one, a claim is ended on a
row that holds it, or the row holds no claim before and after. -/
theorem claimsAfter (h : call.Writes s s' answer) (w : SearchWorld) (handler : ℕ) :
    (∃ purpose, w.claimsAfter handler call answer =
        ⟨handler, call.telegramUserId, s.nonce, purpose⟩ :: w.claims ∧
      (∀ purpose', ¬ s.Holds purpose') ∧ s'.Holds purpose) ∨
    (∃ purpose, w.claimsAfter handler call answer = w.claims.filter
        (fun c => !(c.isFor call.telegramUserId s.nonce && c.purpose = purpose)) ∧
      s.Holds purpose) ∨
    w.claimsAfter handler call answer = w.claims ∧ ∀ purpose', ¬ s.Holds purpose' := by
  have hfree : s.state = .results ∨ s.state = .movie → ∀ purpose', ¬ s.Holds purpose' := by
    rintro hstate (movieId | _) hholds
    · rcases hstate with hstate | hstate <;> simp [UserSearchSession.Holds, hstate] at hholds
    · rcases hstate with hstate | hstate <;> simp [UserSearchSession.Holds, hstate] at hholds
  cases h with
  | setResultMessage messageId hstate => exact .inr (.inr ⟨rfl, hfree (.inl hstate)⟩)
  | claimMovie hstate hmem => exact .inl ⟨_, rfl, hfree (.inl hstate), rfl, rfl⟩
  | completeMovie posterMessageId hholds => exact .inr (.inl ⟨_, rfl, hholds⟩)
  | resetOpening hholds => exact .inr (.inl ⟨_, rfl, hholds⟩)
  | claimBack hstate => exact .inl ⟨_, rfl, hfree (.inr hstate), rfl⟩
  | completeBack resultMessageId hholds => exact .inr (.inl ⟨_, rfl, hholds⟩)
  | resetReturning hholds => exact .inr (.inl ⟨_, rfl, hholds⟩)

end SearchCall.Writes

/-- A row holds one claim at most. -/
theorem UserSearchSession.Holds.purpose_eq {s : UserSearchSession} {purpose purpose' : ClaimPurpose}
    (h : s.Holds purpose) (h' : s.Holds purpose') : purpose = purpose' := by
  cases purpose with
  | movie movieId =>
      cases purpose' with
      | movie movieId' => rw [Option.some.inj (h.2.symm.trans h'.2)]
      | back => cases h.1.symm.trans h'
  | back =>
      cases purpose' with
      | movie movieId' => cases h'.1.symm.trans h
      | back => rfl

namespace SearchWorld

variable {w : SearchWorld}

/-- The nonce a search draws is not one of the user's earlier ones. -/
def FreshNonce (w : SearchWorld) (event : ℕ × SearchCall) : Prop :=
  ∀ u rawQuery normalizedQuery resultMovieIds nonce,
    event.2 = .replace u rawQuery normalizedQuery resultMovieIds nonce → (u, nonce) ∉ w.drawn

/-- **The invariant.**  The nonces of rows and claims have been drawn; the claims of a nonce exclude
each other; while the nonce of a claim is the current one the row is in the state the claim left it
in; and every row is well shaped. -/
structure Sound (w : SearchWorld) : Prop where
  current : ∀ u s, w.sessions.find? u = some s → (u, s.nonce) ∈ w.drawn
  claimed : ∀ c ∈ w.claims, (c.telegramUserId, c.nonce) ∈ w.drawn
  exclusive : w.claims.Pairwise fun c c' => c'.isFor c.telegramUserId c.nonce = false
  held : ∀ c ∈ w.claims, ∀ s, w.sessions.find? c.telegramUserId = some s → s.nonce = c.nonce →
    s.Holds c.purpose
  shaped : ∀ u s, w.sessions.find? u = some s → s.WellShaped

theorem initial_sound : initial.Sound := by
  refine ⟨?_, ?_, List.Pairwise.nil, ?_, ?_⟩
  · exact fun _ _ h => by cases h
  · exact fun _ h => by cases h
  · exact fun _ h => by cases h
  · exact fun _ _ h => by cases h

@[simp] theorem isFor_iff {c : SearchClaim} {u : ℤ} {nonce : Str} :
    c.isFor u nonce = true ↔ c.telegramUserId = u ∧ c.nonce = nonce := by
  simp [SearchClaim.isFor]

/-- A search takes its user to a new nonce, for which nobody has a claim. -/
theorem Sound.searched (hw : w.Sound) {handler : ℕ} {u : ℤ} {rawQuery normalizedQuery nonce : Str}
    {resultMovieIds : List ℤ} {replacement : SearchSessionReplacement} {sessions : SearchSessions}
    (hfresh : (u, nonce) ∉ w.drawn)
    (hself : sessions.find? u =
      some (.ofSearch u nonce rawQuery normalizedQuery resultMovieIds))
    (hother : ∀ v, v ≠ u → sessions.find? v = w.sessions.find? v) :
    let call : SearchCall := .replace u rawQuery normalizedQuery resultMovieIds nonce
    Sound ⟨sessions, w.drawnAfter call,
      w.claimsAfter handler call (.replaced replacement)⟩ := by
  refine ⟨fun v s h => ?_, fun c hc => List.mem_cons_of_mem _ (hw.claimed c hc), hw.exclusive,
    fun c hc s h hnonce => ?_, fun v s h => ?_⟩
  · dsimp only at h
    by_cases hv : v = u
    · subst hv
      obtain rfl := Option.some.inj (hself.symm.trans h)
      exact List.mem_cons_self
    · rw [hother v hv] at h
      exact List.mem_cons_of_mem _ (hw.current v s h)
  · dsimp only at h
    by_cases hv : c.telegramUserId = u
    · -- the claim is one of an earlier nonce
      subst hv
      obtain rfl := Option.some.inj (hself.symm.trans h)
      have hdrawn : (c.telegramUserId, c.nonce) ∈ w.drawn := hw.claimed c hc
      rw [← hnonce] at hdrawn
      exact absurd hdrawn hfresh
    · rw [hother _ hv] at h
      exact hw.held c hc s h hnonce
  · dsimp only at h
    by_cases hv : v = u
    · subst hv
      obtain rfl := Option.some.inj (hself.symm.trans h)
      exact ⟨rfl, rfl⟩
    · rw [hother v hv] at h
      exact hw.shaped v s h

/-- A write keeps the claims of a nonce exclusive, and in accordance with the row. -/
theorem Sound.written (hw : w.Sound) {handler : ℕ} {call : SearchCall} {s s' : UserSearchSession}
    {answer : SearchAnswer} {sessions : SearchSessions}
    (hfind : w.sessions.find? call.telegramUserId = some s) (hwrites : call.Writes s s' answer)
    (hself : sessions.find? call.telegramUserId = some s')
    (hother : ∀ v, v ≠ call.telegramUserId → sessions.find? v = w.sessions.find? v) :
    Sound ⟨sessions, w.drawnAfter call, w.claimsAfter handler call answer⟩ := by
  have hdrawn : w.drawnAfter call = w.drawn := by
    cases hwrites <;> rfl
  -- while no claim of the nonce is open, every open claim is in accordance with the new row
  have hfree : ∀ claims : List SearchClaim, (∀ c ∈ claims, c ∈ w.claims) →
      (∀ c ∈ claims, c.isFor call.telegramUserId s.nonce = false) →
        ∀ c ∈ claims, ∀ r, sessions.find? c.telegramUserId = some r → r.nonce = c.nonce →
          r.Holds c.purpose := by
    intro claims hsub hnone c hc r hr hnonce
    by_cases hv : c.telegramUserId = call.telegramUserId
    · rw [hv, hself] at hr
      obtain rfl := Option.some.inj hr
      have hfor : c.isFor call.telegramUserId s.nonce = true :=
        isFor_iff.2 ⟨hv, hnonce.symm.trans hwrites.nonce⟩
      rw [hnone c hc] at hfor
      cases hfor
    · rw [hother _ hv] at hr
      exact hw.held c (hsub c hc) r hr hnonce
  have hopen : (∀ purpose, ¬ s.Holds purpose) →
      ∀ c ∈ w.claims, c.isFor call.telegramUserId s.nonce = false := by
    intro hnot c hc
    by_contra hfor
    obtain ⟨hu, hnonce⟩ := isFor_iff.1 (Bool.not_eq_false _ ▸ hfor)
    exact hnot c.purpose (hw.held c hc s (hu ▸ hfind) hnonce.symm)
  have hshaped : ∀ u r, sessions.find? u = some r → r.WellShaped := by
    intro u r hr
    by_cases hu : u = call.telegramUserId
    · rw [hu, hself] at hr
      obtain rfl := Option.some.inj hr
      exact hwrites.wellShaped (hw.shaped _ s hfind)
    · rw [hother u hu] at hr
      exact hw.shaped u r hr
  have hcurrent : ∀ u r, sessions.find? u = some r → (u, r.nonce) ∈ w.drawn := by
    intro u r hr
    by_cases hu : u = call.telegramUserId
    · rw [hu, hself] at hr
      obtain rfl := Option.some.inj hr
      exact hu ▸ hwrites.nonce ▸ hw.current _ s hfind
    · rw [hother u hu] at hr
      exact hw.current u r hr
  rcases hwrites.claimsAfter w handler with ⟨purpose, hclaims, hnot, hholds⟩ |
    ⟨purpose, hclaims, hholds⟩ | ⟨hclaims, hnot⟩
  · rw [hdrawn, hclaims]
    refine ⟨hcurrent, fun c hc => ?_, ?_, fun c hc r hr hnonce => ?_, hshaped⟩
    · rcases List.mem_cons.1 hc with rfl | hc
      · exact hw.current _ s hfind
      · exact hw.claimed c hc
    · exact List.pairwise_cons.2 ⟨hopen hnot, hw.exclusive⟩
    · rcases List.mem_cons.1 hc with rfl | hc
      · obtain rfl := Option.some.inj (hself.symm.trans hr)
        exact hholds
      · exact hfree w.claims (fun _ h => h) (hopen hnot) c hc r hr hnonce
  · rw [hdrawn, hclaims]
    refine ⟨hcurrent, fun c hc => hw.claimed c (List.mem_filter.1 hc).1,
      hw.exclusive.sublist List.filter_sublist, ?_, hshaped⟩
    refine hfree _ (fun c hc => (List.mem_filter.1 hc).1) fun c hc => ?_
    -- the claim that is ended is the one the row holds
    obtain ⟨hmem, hkept⟩ := List.mem_filter.1 hc
    by_contra hfor
    obtain ⟨hu, hnonce⟩ := isFor_iff.1 (Bool.not_eq_false _ ▸ hfor)
    have heq : c.purpose = purpose :=
      (hw.held c hmem s (hu ▸ hfind) hnonce.symm).purpose_eq hholds
    simp [SearchClaim.isFor, hu, hnonce, heq] at hkept
  · rw [hdrawn, hclaims]
    exact ⟨hcurrent, hw.claimed, hw.exclusive, hfree w.claims (fun _ h => h) (hopen hnot), hshaped⟩

/-- A call that is answered without a change leaves the world alone. -/
theorem idle_eq_self {handler : ℕ} {call : SearchCall} {answer : SearchAnswer}
    (hcall : call.nonce?.isSome) (hanswer : answer = .claimed none ∨ answer = .changed false) :
    SearchWorld.mk w.sessions (w.drawnAfter call) (w.claimsAfter handler call answer) = w := by
  have hdrawn : w.drawnAfter call = w.drawn := by
    cases call with
    | replace => cases hcall
    | _ => rfl
  have hclaims : w.claimsAfter handler call answer = w.claims := by
    unfold claimsAfter
    rcases hanswer with rfl | rfl <;> simp
  rw [hdrawn, hclaims]

/-- **Every call with a fresh nonce keeps the invariant.** -/
theorem Sound.step (hw : w.Sound) {event : ℕ × SearchCall} (hfresh : w.FreshNonce event) :
    (w.step event).Sound := by
  obtain ⟨handler, call⟩ := event
  unfold SearchWorld.step
  split
  · next sessions answer h =>
      dsimp only at h ⊢
      cases SearchSessions.callStep h with
      | idle hcall hanswer =>
          rw [idle_eq_self hcall hanswer]
          exact hw
      | searched u rawQuery normalizedQuery resultMovieIds nonce replacement hcall hself hother =>
          subst hcall
          exact hw.searched (hfresh u _ _ _ nonce rfl) hself hother
      | written s s' hfind hwrites hself hother => exact hw.written hfind hwrites hself hother
  · exact hw

/-! ### The protocol -/

/-- The protocol in a state: a call that carries a nonce other than the current one changes nothing;
a nonce has one open claim at most; no handler that is between a claim and its end ends the claim of
another one; and every row is well shaped. -/
structure Protocol (w : SearchWorld) : Prop where
  stale : ∀ handler call nonce, call.nonce? = some nonce →
    (∀ s, w.sessions.find? call.telegramUserId = some s → s.nonce ≠ nonce) →
      w.step (handler, call) = w
  exclusive : ∀ u nonce, (w.claims.filter fun c => c.isFor u nonce).length ≤ 1
  own : ∀ handler call nonce, call.nonce? = some nonce →
    (∃ c ∈ w.claims, c.handler = handler ∧ c.isFor call.telegramUserId nonce) →
      ∀ c ∈ w.claims, c ∉ (w.step (handler, call)).claims → c.handler = handler
  shaped : ∀ s ∈ w.sessions, s.WellShaped

/-- A call that carries another nonce than the current one changes nothing. -/
theorem step_stale {handler : ℕ} {call : SearchCall} {nonce : Str}
    (hnonce : call.nonce? = some nonce)
    (hstale : ∀ s, w.sessions.find? call.telegramUserId = some s → s.nonce ≠ nonce) :
    w.step (handler, call) = w := by
  unfold SearchWorld.step
  split
  · next sessions answer h =>
      dsimp only at h ⊢
      cases SearchSessions.callStep h with
      | idle hcall hanswer => exact idle_eq_self hcall hanswer
      | searched u rawQuery normalizedQuery resultMovieIds nonce' replacement hcall =>
          subst hcall
          cases hnonce
      | written s s' hfind hwrites =>
          exact absurd (Option.some.inj (hwrites.nonce?.symm.trans hnonce)) (hstale s hfind)
  · rfl

/-- A nonce has one open claim at most. -/
theorem Sound.length_claims_le (hw : w.Sound) (u : ℤ) (nonce : Str) :
    (w.claims.filter fun c => c.isFor u nonce).length ≤ 1 := by
  cases h : w.claims.filter fun c => c.isFor u nonce with
  | nil => simp
  | cons c claims =>
      cases claims with
      | nil => simp
      | cons c' claims =>
          -- two claims of one nonce would not exclude each other
          have hpair : (c :: c' :: claims).Pairwise
              fun c c' => c'.isFor c.telegramUserId c.nonce = false :=
            h ▸ hw.exclusive.sublist List.filter_sublist
          have hne := (List.pairwise_cons.1 hpair).1 c' List.mem_cons_self
          have hfor : ∀ x ∈ c :: c' :: claims, x.isFor u nonce := by
            intro x hx
            rw [← h] at hx
            exact (List.mem_filter.1 hx).2
          obtain ⟨rfl, rfl⟩ := isFor_iff.1 (hfor c List.mem_cons_self)
          rw [hfor c' (List.mem_cons_of_mem _ List.mem_cons_self)] at hne
          cases hne

/-- Two open claims of a nonce are the same. -/
theorem Sound.claim_eq (hw : w.Sound) {c c' : SearchClaim} (hc : c ∈ w.claims) (hc' : c' ∈ w.claims)
    {u : ℤ} {nonce : Str} (h : c.isFor u nonce) (h' : c'.isFor u nonce) : c = c' := by
  have hle := hw.length_claims_le u nonce
  have hmem : c ∈ w.claims.filter fun c => c.isFor u nonce := List.mem_filter.2 ⟨hc, h⟩
  have hmem' : c' ∈ w.claims.filter fun c => c.isFor u nonce := List.mem_filter.2 ⟨hc', h'⟩
  generalize w.claims.filter (fun c => c.isFor u nonce) = claims at hle hmem hmem'
  obtain _ | ⟨x, _ | ⟨y, claims⟩⟩ := claims
  · cases hmem
  · rw [List.mem_singleton.1 hmem, List.mem_singleton.1 hmem']
  · simp at hle

/-- A call ends claims of its own nonce only. -/
theorem isFor_of_ended {handler : ℕ} {call : SearchCall} {nonce : Str}
    (hnonce : call.nonce? = some nonce) {c : SearchClaim} (hc : c ∈ w.claims)
    (hended : c ∉ (w.step (handler, call)).claims) : c.isFor call.telegramUserId nonce := by
  unfold SearchWorld.step at hended
  split at hended
  · next sessions answer h =>
      dsimp only at h hended
      unfold claimsAfter at hended
      split at hended
      · split at hended
        · exact absurd (List.mem_cons_of_mem _ hc) hended
        · exact absurd hc hended
      · next nonce' hnonce' =>
          obtain rfl : nonce' = nonce := Option.some.inj (hnonce'.symm.trans hnonce)
          split at hended
          · by_contra hfor
            refine hended (List.mem_filter.2 ⟨hc, ?_⟩)
            rw [Bool.eq_false_iff.2 hfor]
            rfl
          · exact absurd hc hended
      · exact absurd hc hended
  · exact absurd hc hended

theorem Sound.protocol (hw : w.Sound) : w.Protocol := by
  refine ⟨fun _ _ _ => step_stale, hw.length_claims_le, ?_, fun s hs => ?_⟩
  · rintro handler call nonce hnonce ⟨own, hown, rfl, hfor⟩ c hc hended
    rw [hw.claim_eq hc hown (isFor_of_ended hnonce hc hended) hfor]
  · exact hw.shaped _ s (KeyedTable.find?_of_mem hs)

/-- **The protocol holds in every state of every run whose searches draw fresh nonces.** -/
theorem search_session_protocol (events : List (ℕ × SearchCall))
    (hfresh : Transition.Along SearchWorld.step FreshNonce initial events) :
    Transition.Always SearchWorld.step Protocol initial events := by
  intro before hpre
  have hsound : (Transition.run SearchWorld.step initial before).Sound :=
    Transition.run_invariant_along (fun _ _ hw hevent => hw.step hevent) initial_sound
      (hfresh.of_prefix hpre)
  exact hsound.protocol

section Witness

/-- A user opens a film of a search twice, goes back while a new search is made, and both handlers
end their claims late. -/
def doubleClicks : List (ℕ × SearchCall) :=
  [(1, .replace 5 "up".toList "up".toList [7, 8] "first".toList),
    (1, .setResultMessage 5 "first".toList 100),
    (2, .claimMovie 5 "first".toList 7 true), (3, .claimMovie 5 "first".toList 8 true),
    (2, .completeMovie 5 "first".toList 7 101), (4, .claimBack 5 "first".toList),
    (5, .replace 5 "down".toList "down".toList [9] "second".toList),
    (6, .claimMovie 5 "second".toList 9 true), (4, .completeBack 5 "first".toList 102),
    (6, .resetOpening 5 "second".toList 9)]

theorem search_session_protocol_doubleClicks :
    (Transition.run SearchWorld.step initial doubleClicks).Protocol := by
  refine (search_session_protocol doubleClicks ?_).last
  simp only [doubleClicks, Transition.along_cons, Transition.along_nil, FreshNonce, reduceCtorEq,
    false_implies, implies_true, and_true, true_and]
  refine ⟨?_, ?_⟩
  · rintro u rawQuery normalizedQuery resultMovieIds nonce h
    cases h
    decide +kernel
  · rintro u rawQuery normalizedQuery resultMovieIds nonce h
    cases h
    decide +kernel

end Witness

end SearchWorld
end CineGate
