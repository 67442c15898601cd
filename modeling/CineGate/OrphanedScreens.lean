/-
**Result lists and posters that nobody deletes.**

Every message of the search handlers in the chat is on one of three accounts: it is recorded in the
row of the user, a handler holds it (it has yet to record or to delete it), or it is lost.  A search
takes the messages of the row over, a claim is told the message that its completion replaces, and so
a message changes accounts without leaving them — except in `set_result_message`: the handler whose
result list is refused forgets the messages it has taken over, and a result list that is stored late
can overwrite one that `complete_back` has recorded.

* `ScreenHandler.held`, `ScreenHandler.claim?` — what a handler answers for, and its open claim;
* `ScreenHandler.drops` — the messages that the next call of a handler loses;
* `SearchScreens.Accounted` — the books, with the open claims of the current nonce;
* `SearchScreens.Accounted.step` — a step moves messages between the accounts and loses the ones it
  drops;
* `SearchScreens.no_orphans_iff_drops_nothing` — once all handlers have finished, the chat shows
  what the row records exactly when no step has dropped a message.
-/

import CineGate.SearchScreens
import CineGate.SearchProtocol
import Mathlib.Data.List.Perm.Basic

set_option relaxedAutoImplicit false
set_option autoImplicit false

namespace CineGate

/-! ### The transactions, on the row of the user -/

namespace SearchSessions

variable {t t' : SearchSessions} {telegramUserId : ℤ} {nonce : Str}

/-- An `UPDATE` changes the row that the guard selects, or it finds none. -/
theorem updateWhere_spec {params : List ℤ} {guard : UserSearchSession → Bool}
    {f : UserSearchSession → UserSearchSession}
    {hf : ∀ s, (f s).telegramUserId = s.telegramUserId} {changed : Bool}
    (h : t.updateWhere params telegramUserId guard f hf = .ok (t', changed)) :
    (∃ s, t.find? telegramUserId = some s ∧ guard s = true ∧ changed = true ∧
        t'.find? telegramUserId = some (f s)) ∨
      ((t.find? telegramUserId).any guard = false ∧ changed = false ∧ t' = t) := by
  unfold updateWhere at h
  split at h
  · cases h
  · split at h
    · next hfind =>
        cases h
        exact .inr ⟨by rw [hfind]; rfl, rfl, rfl⟩
    · next s hfind =>
        split at h
        · next hguard =>
            cases h
            refine .inl ⟨s, hfind, hguard, rfl, ?_⟩
            rw [KeyedTable.find?_modifyAt_self, hfind]
            rfl
        · next hguard =>
            cases h
            exact .inr ⟨by simpa [hfind] using hguard, rfl, rfl⟩

/-- A search takes over the messages of the row, and the row it leaves records none. -/
theorem replace_spec {rawQuery normalizedQuery : Str} {resultMovieIds : List ℤ}
    {replacement : SearchSessionReplacement}
    (h : t.replace telegramUserId rawQuery normalizedQuery resultMovieIds nonce =
      .ok (t', replacement)) :
    t'.find? telegramUserId =
        some (.ofSearch telegramUserId nonce rawQuery normalizedQuery resultMovieIds) ∧
      replacement.previousResultMessageId =
        (t.find? telegramUserId).bind UserSearchSession.resultMessageId ∧
      replacement.previousPosterMessageId =
        (t.find? telegramUserId).bind UserSearchSession.posterMessageId := by
  have hcall : t.call (.replace telegramUserId rawQuery normalizedQuery resultMovieIds nonce) =
      .ok (t', .replaced replacement) := by
    simp [call, h, Except.map]
  have hprevious : replacement.previousResultMessageId =
        (t.find? telegramUserId).bind UserSearchSession.resultMessageId ∧
      replacement.previousPosterMessageId =
        (t.find? telegramUserId).bind UserSearchSession.posterMessageId := by
    unfold replace at h
    split at h
    · cases h
    · split at h
      all_goals
        next hfind =>
          dsimp only at h
          split at h
          · cases h
          · cases h
            rw [hfind]
            exact ⟨rfl, rfl⟩
  cases callStep hcall with
  | idle hnonce => cases hnonce
  | searched u rawQuery normalizedQuery resultMovieIds nonce replacement heq hself =>
      cases heq
      exact ⟨hself, hprevious⟩
  | written s s' hfind hwrites => cases hwrites

/-- A claim of a film finds the row with its results, and is told what the row shows. -/
theorem claimMovie_spec {movieId : ℤ} {answer : Option UserSearchSession}
    (h : t.claimMovie telegramUserId nonce movieId true = .ok (t', answer)) :
    (answer = none ∧ t' = t) ∨
      ∃ s, t.find? telegramUserId = some s ∧ s.nonce = nonce ∧ s.state = .results ∧
        movieId ∈ s.resultMovieIds ∧
        answer = some { s with state := .opening, selectedMovieId := some movieId } ∧
        t'.find? telegramUserId = answer := by
  have hcall : t.call (.claimMovie telegramUserId nonce movieId true) =
      .ok (t', .claimed answer) := by
    simp [call, h, Except.map]
  cases callStep hcall with
  | idle _ hanswer => exact .inl ⟨by simpa using hanswer, rfl⟩
  | written s s' hfind hwrites hself =>
      cases hwrites with
      | claimMovie hstate hmem => exact .inr ⟨s, hfind, rfl, hstate, hmem, rfl, hself⟩

/-- A claim of the way back finds the row with its poster, and is told what the row shows. -/
theorem claimBack_spec {answer : Option UserSearchSession}
    (h : t.claimBack telegramUserId nonce = .ok (t', answer)) :
    (answer = none ∧ t' = t) ∨
      ∃ s, t.find? telegramUserId = some s ∧ s.nonce = nonce ∧ s.state = .movie ∧
        answer = some { s with state := .returning } ∧ t'.find? telegramUserId = answer := by
  have hcall : t.call (.claimBack telegramUserId nonce) = .ok (t', .claimed answer) := by
    simp [call, h, Except.map]
  cases callStep hcall with
  | idle _ hanswer => exact .inl ⟨by simpa using hanswer, rfl⟩
  | written s s' hfind hwrites hself =>
      cases hwrites with
      | claimBack hstate => exact .inr ⟨s, hfind, rfl, hstate, rfl, hself⟩

end SearchSessions

/-! ### Accounts and claims -/

/-- The messages a row records. -/
def UserSearchSession.screenIds (s : UserSearchSession) : List ℤ :=
  s.resultMessageId.toList ++ s.posterMessageId.toList

/-- An open claim: its nonce, its purpose, and the message that its completion replaces. -/
structure ScreenClaim where
  nonce : Str
  purpose : ClaimPurpose
  replaces : Option ℤ
deriving DecidableEq, Repr

/-- The row is in the state the claim has left it in, and shows the message the claim replaces. -/
def ScreenClaim.Fits (c : ScreenClaim) (s : UserSearchSession) : Prop :=
  match c.purpose with
  | .movie movieId => s.Holds (.movie movieId) ∧ c.replaces = s.resultMessageId
  | .back => s.Holds .back ∧ c.replaces = s.posterMessageId

namespace ScreenHandler

/-- The messages a handler has yet to record or to delete. -/
def held : ScreenHandler → List ℤ
  | .replaced _ previousResult previousPoster => previousResult.toList ++ previousPoster.toList
  | .answered _ previousResult previousPoster sent =>
      sent :: (previousResult.toList ++ previousPoster.toList)
  | .copied _ _ _ messageId => [messageId]
  | .resent _ _ messageId => [messageId]
  | .deleting messageIds => messageIds
  | _ => []

/-- The claim of a handler that has not ended yet. -/
def claim? : ScreenHandler → Option ScreenClaim
  | .opening nonce movieId claimed | .copied nonce movieId claimed _ =>
      some ⟨nonce, .movie movieId, claimed.resultMessageId⟩
  | .returning nonce claimed | .resent nonce claimed _ =>
      some ⟨nonce, .back, claimed.posterMessageId⟩
  | _ => none

/-- The messages that the next call of a handler loses, from the row it finds: a result list that is
stored overwrites the recorded one, and a handler whose result list is refused forgets the messages
it has taken over. -/
def drops (row : Option UserSearchSession) : ScreenHandler → List ℤ
  | .answered nonce previousResult previousPoster _ =>
      if row.any fun s => s.isAt nonce .results then
        (row.bind UserSearchSession.resultMessageId).toList
      else previousResult.toList ++ previousPoster.toList
  | _ => []

end ScreenHandler

/-- The open claims of a user whose row is `row`: their nonces have been drawn, no two of them have
the same, and the row fits the claim of its nonce. -/
structure ClaimsFit (row : Option UserSearchSession) (drawn : List Str)
    (claims : List ScreenClaim) :
    Prop where
  drawn : ∀ c ∈ claims, c.nonce ∈ drawn
  fits : ∀ c ∈ claims, ∀ s, row = some s → s.nonce = c.nonce → c.Fits s
  exclusive : (claims.map ScreenClaim.nonce).Nodup

namespace ClaimsFit

variable {row : Option UserSearchSession} {s s' : UserSearchSession} {drawn : List Str}
  {c : ScreenClaim} {claims claims' : List ScreenClaim}

theorem of_perm (h : ClaimsFit row drawn claims) (hperm : claims.Perm claims') :
    ClaimsFit row drawn claims' := by
  refine ⟨fun c hc => h.drawn c (hperm.mem_iff.2 hc), fun c hc => h.fits c (hperm.mem_iff.2 hc), ?_⟩
  exact (hperm.map ScreenClaim.nonce).nodup_iff.1 h.exclusive

theorem tail (h : ClaimsFit row drawn (c :: claims)) : ClaimsFit row drawn claims :=
  ⟨fun c hc => h.drawn c (List.mem_cons_of_mem _ hc),
    fun c hc => h.fits c (List.mem_cons_of_mem _ hc), (List.nodup_cons.1 h.exclusive).2⟩

/-- The claim of a nonce is the only one of it. -/
theorem head_ne (h : ClaimsFit row drawn (c :: claims)) : ∀ d ∈ claims, d.nonce ≠ c.nonce := by
  intro d hd heq
  exact (List.nodup_cons.1 h.exclusive).1 (heq ▸ List.mem_map_of_mem hd)

/-- A row with its results or with its poster has no open claim. -/
theorem nonce_ne (h : ClaimsFit (some s) drawn claims)
    (hstate : s.state = .results ∨ s.state = .movie) : ∀ c ∈ claims, c.nonce ≠ s.nonce := by
  intro c hc heq
  have hfits := h.fits c hc s rfl heq.symm
  unfold ScreenClaim.Fits UserSearchSession.Holds at hfits
  split at hfits
  · rcases hstate with hstate | hstate <;> cases hstate.symm.trans hfits.1.1
  · rcases hstate with hstate | hstate <;> cases hstate.symm.trans hfits.1

/-- A row without a claim changes freely. -/
theorem change (h : ClaimsFit row drawn claims) (hnonce : ∀ c ∈ claims, c.nonce ≠ s'.nonce) :
    ClaimsFit (some s') drawn claims := by
  refine ⟨h.drawn, ?_, h.exclusive⟩
  rintro c hc t ⟨⟩ heq
  exact absurd heq.symm (hnonce c hc)

/-- A new search takes the row to a nonce nobody has a claim of. -/
theorem search (h : ClaimsFit row drawn claims) (hfresh : s'.nonce ∉ drawn) :
    ClaimsFit (some s') (s'.nonce :: drawn) claims := by
  have hchange : ClaimsFit (some s') drawn claims :=
    h.change fun c hc heq => hfresh (heq ▸ h.drawn c hc)
  exact ⟨fun c hc => List.mem_cons_of_mem _ (h.drawn c hc), hchange.fits, h.exclusive⟩

/-- A claim is granted for a row that has none. -/
theorem grant (h : ClaimsFit (some s) drawn claims)
    (hstate : s.state = .results ∨ s.state = .movie) (hdrawn : s.nonce ∈ drawn)
    (hs' : s'.nonce = s.nonce) (hc : c.nonce = s.nonce) (hfits : c.Fits s') :
    ClaimsFit (some s') drawn (c :: claims) := by
  have hne := h.nonce_ne hstate
  have hchange : ClaimsFit (some s') drawn claims := h.change fun d hd => hs' ▸ hne d hd
  refine ⟨?_, ?_, ?_⟩
  · rintro d (_ | ⟨_, hd⟩)
    · exact hc ▸ hdrawn
    · exact h.drawn d hd
  · rintro d (_ | ⟨_, hd⟩) t ⟨⟩ heq
    · exact hfits
    · exact hchange.fits d hd _ rfl heq
  · refine List.nodup_cons.2 ⟨fun hmem => ?_, h.exclusive⟩
    obtain ⟨d, hd, heq⟩ := List.mem_map.1 hmem
    exact hne d hd (heq.trans hc)

end ClaimsFit

namespace SearchScreens

variable (telegramUserId : ℤ)

/-- The messages the row of the user records. -/
def recorded (w : SearchScreens) : List ℤ :=
  (w.row? telegramUserId).elim [] UserSearchSession.screenIds

/-- **The books.**  The chat is what is lost, what the row records and what the handlers hold; the
row is well shaped and the open claims fit it. -/
structure Books (lost : List ℤ) (w : SearchScreens) (held : List ℤ) (claims : List ScreenClaim) :
    Prop where
  balanced : w.chat.Perm (lost ++ (w.recorded telegramUserId ++ held))
  distinct : w.chat.Nodup
  issued : ∀ id ∈ w.chat, id ∈ w.issued
  shaped : ∀ s, w.row? telegramUserId = some s → s.WellShaped ∧ s.nonce ∈ w.drawn
  claimed : ClaimsFit (w.row? telegramUserId) w.drawn claims

/-- The books over what all handlers hold and claim. -/
def Accounted (lost : List ℤ) (w : SearchScreens) : Prop :=
  w.Books telegramUserId lost (w.handlers.flatMap ScreenHandler.held)
    (w.handlers.flatMap fun h => h.claim?.toList)

variable {telegramUserId}

namespace Books

variable {lost lost' : List ℤ} {w w' : SearchScreens} {held held' : List ℤ}
  {claims claims' : List ScreenClaim}

theorem of_perm (hw : w.Books telegramUserId lost held claims) (hheld : held.Perm held')
    (hclaims : claims.Perm claims') : w.Books telegramUserId lost held' claims' := by
  refine ⟨hw.balanced.trans ?_, hw.distinct, hw.issued, hw.shaped, hw.claimed.of_perm hclaims⟩
  exact (hheld.append_left _).append_left _

/-- A transaction moves messages between the accounts. -/
theorem transact (hw : w.Books telegramUserId lost held claims) (hchat : w'.chat = w.chat)
    (hissued : w'.issued = w.issued)
    (hbalanced : (lost ++ (w.recorded telegramUserId ++ held)).Perm
      (lost' ++ (w'.recorded telegramUserId ++ held')))
    (hshaped : ∀ s, w'.row? telegramUserId = some s → s.WellShaped ∧ s.nonce ∈ w'.drawn)
    (hclaimed : ClaimsFit (w'.row? telegramUserId) w'.drawn claims') :
    w'.Books telegramUserId lost' held' claims' := by
  refine ⟨?_, ?_, ?_, hshaped, hclaimed⟩
  · rw [hchat]
    exact hw.balanced.trans hbalanced
  · rw [hchat]
    exact hw.distinct
  · rw [hchat, hissued]
    exact hw.issued

/-- A message that is sent is held by its sender. -/
theorem send {messageId : ℤ} (hw : w.Books telegramUserId lost held claims)
    (h : w.send messageId = some w') : w'.Books telegramUserId lost (messageId :: held) claims := by
  unfold SearchScreens.send at h
  split at h
  · cases h
  · next hfresh =>
      cases h
      refine ⟨?_, ?_, ?_, hw.shaped, hw.claimed⟩
      · refine (hw.balanced.cons messageId).trans (List.perm_iff_count.2 fun id => ?_)
        simp only [recorded, row?, List.count_append, List.count_cons]
        omega
      · exact List.nodup_cons.2 ⟨fun hmem => hfresh (hw.issued messageId hmem), hw.distinct⟩
      · rintro id (_ | ⟨_, hid⟩)
        · exact List.mem_cons_self
        · exact List.mem_cons_of_mem _ (hw.issued id hid)

/-- A message that is deleted leaves the chat and its holder. -/
theorem delete {messageId : ℤ} (hw : w.Books telegramUserId lost (messageId :: held) claims) :
    ({ w with chat := w.chat.erase messageId } : SearchScreens).Books telegramUserId lost held
      claims := by
  refine ⟨?_, hw.distinct.erase messageId, fun id hid => hw.issued id (List.mem_of_mem_erase hid),
    hw.shaped, hw.claimed⟩
  refine (hw.balanced.erase messageId).trans ?_
  have hmiddle : (lost ++ (w.recorded telegramUserId ++ messageId :: held)).Perm
      (messageId :: (lost ++ (w.recorded telegramUserId ++ held))) := by
    refine List.perm_iff_count.2 fun id => ?_
    simp only [List.count_append, List.count_cons]
    omega
  have herase := hmiddle.erase messageId
  rwa [List.erase_cons_head] at herase

theorem nodup (hw : w.Books telegramUserId lost held claims) :
    (lost ++ (w.recorded telegramUserId ++ held)).Nodup :=
  hw.balanced.nodup_iff.1 hw.distinct

theorem recorded_eq {s : UserSearchSession} (h : w.row? telegramUserId = some s) :
    w.recorded telegramUserId = s.screenIds := by
  rw [recorded, h]
  rfl

/-- A search takes over the messages of the row. -/
theorem search (hw : w.Books telegramUserId lost held claims) {nonce rawQuery normalizedQuery : Str}
    {resultMovieIds : List ℤ} {replacement : SearchSessionReplacement} {sessions : SearchSessions}
    (hfresh : nonce ∉ w.drawn)
    (h : w.sessions.replace telegramUserId rawQuery normalizedQuery resultMovieIds nonce =
      .ok (sessions, replacement)) :
    ({ w with sessions, drawn := nonce :: w.drawn } : SearchScreens).Books telegramUserId lost
      (replacement.previousResultMessageId.toList ++
        replacement.previousPosterMessageId.toList ++ held) claims := by
  obtain ⟨hrow, hresult, hposter⟩ := SearchSessions.replace_spec h
  have hrecorded : w.recorded telegramUserId = replacement.previousResultMessageId.toList ++
      replacement.previousPosterMessageId.toList := by
    rw [hresult, hposter, recorded, row?]
    cases w.sessions.find? telegramUserId <;> rfl
  refine hw.transact rfl rfl ?_ ?_ ?_
  · rw [hrecorded, recorded_eq (w := { w with sessions, drawn := nonce :: w.drawn }) hrow]
    rfl
  · intro s hs
    cases hrow.symm.trans hs
    exact ⟨⟨rfl, rfl⟩, List.mem_cons_self⟩
  · rw [row?, hrow]
    exact hw.claimed.search hfresh

/-- A result list that is stored replaces the recorded one, which is lost. -/
theorem store {nonce : Str} {sent : ℤ} (hw : w.Books telegramUserId lost (sent :: held) claims)
    {sessions : SearchSessions} {s : UserSearchSession} (hs : w.row? telegramUserId = some s)
    (hat : s.isAt nonce .results)
    (h : sessions.find? telegramUserId = some { s with resultMessageId := some sent }) :
    ({ w with sessions } : SearchScreens).Books telegramUserId (s.resultMessageId.toList ++ lost)
      held
      claims := by
  obtain ⟨-, hstate⟩ := UserSearchSession.isAt_eq_true.1 hat
  obtain ⟨hshaped, hdrawn⟩ := hw.shaped s hs
  have hposter : s.posterMessageId = none := by
    simp only [UserSearchSession.WellShaped, hstate] at hshaped
    exact hshaped.2
  refine hw.transact rfl rfl ?_ ?_ ?_
  · rw [recorded_eq hs, recorded_eq (w := { w with sessions }) h]
    refine List.perm_iff_count.2 fun id => ?_
    simp only [UserSearchSession.screenIds, hposter, Option.toList, List.count_append,
      List.count_cons, List.count_nil]
    omega
  · intro t ht
    cases h.symm.trans ht
    exact ⟨by simpa [UserSearchSession.WellShaped, hstate] using hshaped, hdrawn⟩
  · rw [row?, h]
    have hclaimed := hw.claimed
    rw [hs] at hclaimed
    exact hclaimed.change fun c hc => hclaimed.nonce_ne (.inl hstate) c hc

/-- A claim changes the state of the row and none of its messages. -/
theorem grant (hw : w.Books telegramUserId lost held claims) {sessions : SearchSessions}
    {s s' : UserSearchSession} {c : ScreenClaim} (hs : w.row? telegramUserId = some s)
    (hstate : s.state = .results ∨ s.state = .movie)
    (h : sessions.find? telegramUserId = some s') (hids : s'.screenIds = s.screenIds)
    (hnonce : s'.nonce = s.nonce) (hshaped : s'.WellShaped) (hc : c.nonce = s.nonce)
    (hfits : c.Fits s') :
    ({ w with sessions } : SearchScreens).Books telegramUserId lost held (c :: claims) := by
  have hdrawn := (hw.shaped s hs).2
  refine hw.transact rfl rfl ?_ ?_ ?_
  · rw [recorded_eq hs, recorded_eq (w := { w with sessions }) h, hids]
  · intro t ht
    cases h.symm.trans ht
    exact ⟨hshaped, hnonce ▸ hdrawn⟩
  · rw [row?, h]
    have hclaimed := hw.claimed
    rw [hs] at hclaimed
    exact hclaimed.grant hstate hdrawn hnonce hc hfits

/-- A completion records the message of its handler, which gets the one its claim replaces. -/
theorem complete {messageId : ℤ} {c : ScreenClaim}
    (hw : w.Books telegramUserId lost (messageId :: held) (c :: claims)) {sessions : SearchSessions}
    {s s' : UserSearchSession} (hs : w.row? telegramUserId = some s) (hnonce : s.nonce = c.nonce)
    (h : sessions.find? telegramUserId = some s') (hnonce' : s'.nonce = s.nonce)
    (hshaped : s'.WellShaped) (hids : s.screenIds = c.replaces.toList)
    (hids' : s'.screenIds = [messageId]) :
    ({ w with sessions } : SearchScreens).Books telegramUserId lost (c.replaces.toList ++ held)
      claims := by
  refine hw.transact rfl rfl ?_ ?_ ?_
  · rw [recorded_eq hs, recorded_eq (w := { w with sessions }) h, hids, hids']
    refine List.perm_iff_count.2 fun id => ?_
    simp only [List.count_append, List.count_cons, List.count_nil]
    omega
  · intro t ht
    cases h.symm.trans ht
    exact ⟨hshaped, hnonce' ▸ (hw.shaped s hs).2⟩
  · rw [row?, h]
    refine hw.claimed.tail.change fun d hd => ?_
    rw [hnonce', hnonce]
    exact hw.claimed.head_ne d hd

/-- What its holder forgets is lost. -/
theorem lose {ids : List ℤ} (hw : w.Books telegramUserId lost (ids ++ held) claims) :
    w.Books telegramUserId (ids ++ lost) held claims := by
  refine hw.transact rfl rfl (List.perm_iff_count.2 fun id => ?_) hw.shaped hw.claimed
  simp only [List.count_append]
  omega

/-- A claim that ends has no effect on the others. -/
theorem endClaim {c : ScreenClaim} (hw : w.Books telegramUserId lost held (c :: claims)) :
    w.Books telegramUserId lost held claims :=
  hw.transact rfl rfl (List.Perm.refl _) hw.shaped hw.claimed.tail

end Books

/-! ### The transactions that record a message -/

namespace Books

variable {lost : List ℤ} {w : SearchScreens} {held : List ℤ} {claims : List ScreenClaim}
  {sessions : SearchSessions} {nonce : Str}

/-- `set_result_message`. -/
theorem answer {previousResult previousPoster : Option ℤ} {sent : ℤ} {stored : Bool}
    (hw : w.Books telegramUserId lost
      (sent :: (previousResult.toList ++ previousPoster.toList) ++ held) claims)
    (h : w.sessions.setResultMessage telegramUserId nonce sent = .ok (sessions, stored)) :
    ({ w with sessions } : SearchScreens).Books telegramUserId
      (ScreenHandler.drops (w.row? telegramUserId)
        (.answered nonce previousResult previousPoster sent) ++ lost)
      ((if stored then cleanupPreviousUi previousResult previousPoster sent else [sent]) ++ held)
      claims := by
  rcases SearchSessions.updateWhere_spec h with ⟨s, hs, hat, rfl, hrow⟩ | ⟨hat, rfl, rfl⟩
  · -- the new message is in none of the accounts yet
    have hnodup := (List.nodup_append.1 (List.nodup_append.1 hw.nodup).2.1).2.1
    have hnew : sent ∉ previousResult.toList ++ previousPoster.toList := fun hmem =>
      (List.nodup_cons.1 hnodup).1 (List.mem_append_left _ hmem)
    have hcleanup : cleanupPreviousUi previousResult previousPoster sent =
        previousResult.toList ++ previousPoster.toList :=
      List.filter_eq_self.2 fun id hid => by
        simpa using fun heq : id = sent => hnew (heq ▸ hid)
    have hdrops : ScreenHandler.drops (w.row? telegramUserId)
        (.answered nonce previousResult previousPoster sent) = s.resultMessageId.toList := by
      simp [ScreenHandler.drops, row?, hs, hat]
    rw [if_pos rfl, hcleanup, hdrops]
    exact hw.store hs hat hrow
  · have hdrops : ScreenHandler.drops (w.row? telegramUserId)
        (.answered nonce previousResult previousPoster sent) =
          previousResult.toList ++ previousPoster.toList := by
      rw [ScreenHandler.drops, row?, hat]
      rfl
    have hheld : (sent :: (previousResult.toList ++ previousPoster.toList) ++ held).Perm
        ((previousResult.toList ++ previousPoster.toList) ++ ([sent] ++ held)) := by
      refine List.perm_iff_count.2 fun id => ?_
      simp only [List.count_append, List.count_cons, List.count_nil]
      omega
    rw [if_neg Bool.false_ne_true, hdrops]
    exact (hw.of_perm hheld (List.Perm.refl _)).lose

/-- A completion that finds the row as its claim has left it, or a row of another claim. -/
theorem completion {c : ScreenClaim} {messageId : ℤ} {params : List ℤ} {completed : Bool}
    {guard : UserSearchSession → Bool} {f : UserSearchSession → UserSearchSession}
    {hf : ∀ s, (f s).telegramUserId = s.telegramUserId}
    (hw : w.Books telegramUserId lost (messageId :: held) (c :: claims))
    (h : w.sessions.updateWhere params telegramUserId guard f hf = .ok (sessions, completed))
    (hguard : ∀ s, guard s = true → s.nonce = c.nonce)
    (hcomplete : ∀ s, s.WellShaped → c.Fits s →
      (f s).nonce = s.nonce ∧ (f s).WellShaped ∧ s.screenIds = c.replaces.toList ∧
        (f s).screenIds = [messageId]) :
    ({ w with sessions } : SearchScreens).Books telegramUserId lost
      ((if completed then c.replaces.toList else [messageId]) ++ held) claims := by
  rcases SearchSessions.updateWhere_spec h with ⟨s, hs, hat, rfl, hrow⟩ | ⟨-, rfl, rfl⟩
  · have hnonce := hguard s hat
    have hfits := hw.claimed.fits c List.mem_cons_self s hs hnonce
    obtain ⟨hnonce', hshaped, hids, hids'⟩ := hcomplete s (hw.shaped s hs).1 hfits
    exact hw.complete hs hnonce hrow hnonce' hshaped hids hids'
  · exact hw.endClaim

/-- `complete_movie`. -/
theorem completeMovie {movieId messageId : ℤ} {claimed : UserSearchSession} {completed : Bool}
    (hw : w.Books telegramUserId lost (messageId :: held)
      (⟨nonce, .movie movieId, claimed.resultMessageId⟩ :: claims))
    (h : w.sessions.completeMovie telegramUserId nonce movieId messageId =
      .ok (sessions, completed)) :
    ({ w with sessions } : SearchScreens).Books telegramUserId lost
      ((if completed then claimed.resultMessageId.toList else [messageId]) ++ held) claims := by
  refine hw.completion h (fun s hat => ?_) fun s hshaped hfits => ?_
  · exact (UserSearchSession.isAt_eq_true.1 (Bool.and_eq_true_iff.1 hat).1).1
  · obtain ⟨⟨hstate, -⟩, hreplaces⟩ := hfits
    simp only [UserSearchSession.WellShaped, hstate] at hshaped
    obtain ⟨hselected, hposter⟩ := hshaped
    have hids : s.screenIds = s.resultMessageId.toList := by
      simp [UserSearchSession.screenIds, hposter]
    exact ⟨rfl, ⟨hselected, rfl, rfl⟩, hids.trans (congrArg Option.toList hreplaces).symm, rfl⟩

/-- `complete_back`. -/
theorem completeBack {messageId : ℤ} {claimed : UserSearchSession} {completed : Bool}
    (hw : w.Books telegramUserId lost (messageId :: held)
      (⟨nonce, .back, claimed.posterMessageId⟩ :: claims))
    (h : w.sessions.completeBack telegramUserId nonce messageId = .ok (sessions, completed)) :
    ({ w with sessions } : SearchScreens).Books telegramUserId lost
      ((if completed then claimed.posterMessageId.toList else [messageId]) ++ held) claims := by
  refine hw.completion h (fun s hat => ?_) fun s hshaped hfits => ?_
  · exact (UserSearchSession.isAt_eq_true.1 hat).1
  · obtain ⟨hstate, hreplaces⟩ := hfits
    have hstate : s.state = .returning := hstate
    simp only [UserSearchSession.WellShaped, hstate] at hshaped
    have hids : s.screenIds = s.posterMessageId.toList := by
      simp [UserSearchSession.screenIds, hshaped.2.2]
    exact ⟨rfl, ⟨rfl, rfl⟩, hids.trans (congrArg Option.toList hreplaces).symm, rfl⟩

/-- `claim_movie`: a granted claim joins the open ones. -/
theorem claimMovie {movieId : ℤ} {answer : Option UserSearchSession}
    (hw : w.Books telegramUserId lost held claims)
    (h : w.sessions.claimMovie telegramUserId nonce movieId true = .ok (sessions, answer)) :
    ({ w with sessions } : SearchScreens).Books telegramUserId lost held
      ((answer.map fun claimed =>
        ⟨nonce, .movie movieId, claimed.resultMessageId⟩).toList ++ claims) := by
  rcases SearchSessions.claimMovie_spec h with ⟨rfl, rfl⟩ | ⟨s, hs, rfl, hstate, hmem, rfl, hrow⟩
  · exact hw
  · obtain ⟨hshaped, -⟩ := hw.shaped s hs
    simp only [UserSearchSession.WellShaped, hstate] at hshaped
    exact hw.grant hs (.inl hstate) hrow rfl rfl ⟨⟨movieId, hmem, rfl⟩, hshaped.2⟩ rfl
      ⟨⟨rfl, rfl⟩, rfl⟩

/-- `claim_back`: a granted claim joins the open ones. -/
theorem claimBack {answer : Option UserSearchSession}
    (hw : w.Books telegramUserId lost held claims)
    (h : w.sessions.claimBack telegramUserId nonce = .ok (sessions, answer)) :
    ({ w with sessions } : SearchScreens).Books telegramUserId lost held
      ((answer.map fun claimed => ⟨nonce, .back, claimed.posterMessageId⟩).toList ++ claims) := by
  rcases SearchSessions.claimBack_spec h with ⟨rfl, rfl⟩ | ⟨s, hs, rfl, hstate, rfl, hrow⟩
  · exact hw
  · obtain ⟨hshaped, -⟩ := hw.shaped s hs
    simp only [UserSearchSession.WellShaped, hstate] at hshaped
    exact hw.grant hs (.inr hstate) hrow rfl rfl hshaped rfl ⟨rfl, rfl⟩

end Books

/-! ### One step -/

section Step

variable [UnicodeData] {lost : List ℤ} {w w' : SearchScreens}

/-- What the next call of a handler does to the books: the handler's part of them changes, and the
messages it drops are lost. -/
theorem Books.advance {h h' : ScreenHandler} {messageId : ℤ} {held : List ℤ}
    {claims : List ScreenClaim}
    (hw : w.Books telegramUserId lost (h.held ++ held) (h.claim?.toList ++ claims))
    (hadvance : w.advance telegramUserId messageId h = some (w', h')) :
    w'.Books telegramUserId (h.drops (w.row? telegramUserId) ++ lost) (h'.held ++ held)
      (h'.claim?.toList ++ claims) := by
  cases h with
  | searching rawQuery resultMovieIds nonce =>
      simp only [SearchScreens.advance] at hadvance
      split at hadvance
      · cases hadvance
      · next hfresh =>
          split at hadvance
          · next hreplace =>
              cases hadvance
              exact hw.search hfresh hreplace
          · cases hadvance
  | replaced nonce previousResult previousPoster =>
      obtain ⟨w₁, hsend, heq⟩ := Option.map_eq_some_iff.1 hadvance
      cases heq
      exact hw.send hsend
  | answered nonce previousResult previousPoster sent =>
      simp only [SearchScreens.advance] at hadvance
      split at hadvance
      · next sessions stored hstore =>
          cases hadvance
          exact hw.answer hstore
      · cases hadvance
  | selecting nonce movieId =>
      simp only [SearchScreens.advance] at hadvance
      split at hadvance
      · next sessions claimed hclaim =>
          cases hadvance
          exact hw.claimMovie hclaim
      · next sessions hclaim =>
          cases hadvance
          exact hw.claimMovie hclaim
      · cases hadvance
  | opening nonce movieId claimed =>
      obtain ⟨w₁, hsend, heq⟩ := Option.map_eq_some_iff.1 hadvance
      cases heq
      exact hw.send hsend
  | copied nonce movieId claimed copied =>
      simp only [SearchScreens.advance] at hadvance
      split at hadvance
      · next sessions completed hcomplete =>
          cases hadvance
          exact hw.completeMovie hcomplete
      · cases hadvance
  | looking nonce hasResults =>
      simp only [SearchScreens.advance] at hadvance
      split at hadvance
      · cases hadvance
        split <;> exact hw
      · cases hadvance
        exact hw
  | goingBack nonce =>
      simp only [SearchScreens.advance] at hadvance
      split at hadvance
      · next sessions claimed hclaim =>
          cases hadvance
          exact hw.claimBack hclaim
      · next sessions hclaim =>
          cases hadvance
          exact hw.claimBack hclaim
      · cases hadvance
  | returning nonce claimed =>
      obtain ⟨w₁, hsend, heq⟩ := Option.map_eq_some_iff.1 hadvance
      cases heq
      exact hw.send hsend
  | resent nonce claimed sent =>
      simp only [SearchScreens.advance] at hadvance
      split at hadvance
      · next sessions completed hcomplete =>
          cases hadvance
          exact hw.completeBack hcomplete
      · cases hadvance
  | deleting messageIds =>
      cases messageIds with
      | nil => cases hadvance
      | cons id messageIds =>
          cases hadvance
          exact hw.delete

/-- The messages that a step loses. -/
def dropped (telegramUserId : ℤ) (w : SearchScreens) : ScreenEvent → List ℤ
  | .advance i messageId =>
      match w.handlers[i]? with
      | none => []
      | some h =>
          if (w.advance telegramUserId messageId h).isSome then h.drops (w.row? telegramUserId)
          else []
  | _ => []

omit [UnicodeData] in
/-- A handler that arrives holds nothing. -/
theorem Accounted.arrive (hw : Accounted telegramUserId lost w) {h : ScreenHandler}
    (hheld : h.held = []) (hclaim : h.claim? = none) :
    Accounted telegramUserId lost { w with handlers := w.handlers ++ [h] } := by
  unfold Accounted at hw ⊢
  have hheld' : (w.handlers ++ [h]).flatMap ScreenHandler.held =
      w.handlers.flatMap ScreenHandler.held := by
    simp [hheld]
  have hclaims' : (w.handlers ++ [h]).flatMap (fun h => h.claim?.toList) =
      w.handlers.flatMap fun h => h.claim?.toList := by
    simp [hclaim]
  rw [hheld', hclaims']
  exact hw.transact rfl rfl (List.Perm.refl _) hw.shaped hw.claimed

/-- **A step loses what it drops and keeps the books of everything else.** -/
theorem Accounted.step (hw : Accounted telegramUserId lost w) (event : ScreenEvent) :
    Accounted telegramUserId (w.dropped telegramUserId event ++ lost)
      (w.step telegramUserId event) := by
  cases event with
  | message text allowed resultMovieIds nonce =>
      have hstart : (directMovieSearch text allowed resultMovieIds nonce).held = [] ∧
          (directMovieSearch text allowed resultMovieIds nonce).claim? = none := by
        unfold directMovieSearch
        split
        · exact ⟨rfl, rfl⟩
        · dsimp only
          split <;> exact ⟨rfl, rfl⟩
      exact hw.arrive hstart.1 hstart.2
  | selectMovie nonce movieId allowed hasView =>
      have hstart : (CineGate.selectMovie nonce movieId allowed hasView).held = [] ∧
          (CineGate.selectMovie nonce movieId allowed hasView).claim? = none := by
        unfold CineGate.selectMovie
        split <;> exact ⟨rfl, rfl⟩
      exact hw.arrive hstart.1 hstart.2
  | backToResults nonce allowed hasResults =>
      have hstart : (CineGate.backToResults nonce allowed hasResults).held = [] ∧
          (CineGate.backToResults nonce allowed hasResults).claim? = none := by
        unfold CineGate.backToResults
        split <;> exact ⟨rfl, rfl⟩
      exact hw.arrive hstart.1 hstart.2
  | advance i messageId =>
      cases hi : w.handlers[i]? with
      | none =>
          simp only [SearchScreens.step, dropped, hi]
          exact hw
      | some h =>
          cases hadvance : w.advance telegramUserId messageId h with
          | none =>
              simp only [SearchScreens.step, dropped, hi, hadvance]
              exact hw
          | some next =>
              obtain ⟨w', h'⟩ := next
              simp only [SearchScreens.step, dropped, hi, hadvance]
              obtain ⟨hlt, rfl⟩ := List.getElem?_eq_some_iff.1 hi
              -- the handlers are the one that goes on and the others
              have hold : w.handlers.Perm (w.handlers[i] :: w.handlers.eraseIdx i) :=
                (List.getElem_cons_eraseIdx_perm hlt).symm
              have hnew : (h' :: w.handlers.eraseIdx i).Perm (w.handlers.set i h') :=
                (List.set_perm_cons_eraseIdx hlt h').symm
              have hbooks : w'.Books telegramUserId
                  (w.handlers[i].drops (w.row? telegramUserId) ++ lost)
                  ((h' :: w.handlers.eraseIdx i).flatMap ScreenHandler.held)
                  ((h' :: w.handlers.eraseIdx i).flatMap fun h => h.claim?.toList) :=
                (hw.of_perm (hold.flatMap_right _) (hold.flatMap_right _)).advance hadvance
              have hset := hbooks.of_perm (hnew.flatMap_right _) (hnew.flatMap_right _)
              exact hset.transact rfl rfl (List.Perm.refl _) hset.shaped hset.claimed

end Step

/-! ### Runs -/

section Runs

variable [UnicodeData]

/-- Nobody is at work, and the chat shows what the row records. -/
structure Settled (telegramUserId : ℤ) (w : SearchScreens) : Prop where
  handlers : w.handlers = []
  chat : w.chat.Perm (w.recorded telegramUserId)
  distinct : w.chat.Nodup
  issued : ∀ id ∈ w.chat, id ∈ w.issued
  shaped : ∀ s, w.row? telegramUserId = some s → s.WellShaped ∧ s.nonce ∈ w.drawn

/-- Every handler has finished. -/
def AllFinished (w : SearchScreens) : Prop := ∀ h ∈ w.handlers, h = .deleting []

instance (w : SearchScreens) : Decidable w.AllFinished :=
  inferInstanceAs (Decidable (∀ h ∈ w.handlers, h = .deleting []))

/-- The result lists and posters in the chat are those the row records. -/
def NoOrphans (telegramUserId : ℤ) (w : SearchScreens) : Prop :=
  ∀ id ∈ w.chat, id ∈ w.recorded telegramUserId

instance (telegramUserId : ℤ) (w : SearchScreens) : Decidable (w.NoOrphans telegramUserId) :=
  inferInstanceAs (Decidable (∀ id ∈ w.chat, id ∈ w.recorded telegramUserId))

/-- The step loses no message. -/
def DropsNothing (telegramUserId : ℤ) (w : SearchScreens) (event : ScreenEvent) : Prop :=
  w.dropped telegramUserId event = []

variable {telegramUserId : ℤ} {w : SearchScreens}

omit [UnicodeData] in
theorem Settled.accounted (hw : w.Settled telegramUserId) : Accounted telegramUserId [] w := by
  unfold Accounted
  rw [hw.handlers]
  refine ⟨?_, hw.distinct, hw.issued, hw.shaped, ?_⟩
  · simpa using hw.chat
  · exact ⟨fun c hc => (by cases hc), fun c hc => (by cases hc), List.nodup_nil⟩

omit [UnicodeData] in
/-- Once all handlers have finished, a message in the chat is recorded or lost. -/
theorem Accounted.noOrphans_iff {lost : List ℤ} (hw : Accounted telegramUserId lost w)
    (hfinished : w.AllFinished) : w.NoOrphans telegramUserId ↔ lost = [] := by
  have hheld : w.handlers.flatMap ScreenHandler.held = [] := by
    refine List.flatMap_eq_nil_iff.2 fun h hh => ?_
    rw [hfinished h hh]
    rfl
  have hbalanced : w.chat.Perm (lost ++ w.recorded telegramUserId) := by
    have hbalanced := hw.balanced
    rwa [hheld, List.append_nil] at hbalanced
  have hdisjoint := (List.nodup_append.1 (hbalanced.nodup_iff.1 hw.distinct)).2.2
  constructor
  · intro hrecorded
    refine List.eq_nil_iff_forall_not_mem.2 fun id hid => ?_
    have hchat : id ∈ w.chat := hbalanced.mem_iff.2 (List.mem_append_left _ hid)
    exact hdisjoint id hid id (hrecorded id hchat) rfl
  · rintro rfl id hid
    exact hbalanced.mem_iff.1 hid

/-- Along a run, what is lost is what the steps have dropped. -/
theorem Settled.accounted_run (hw : w.Settled telegramUserId) (events : List ScreenEvent) :
    ∃ lost, Accounted telegramUserId lost (Transition.run (step telegramUserId) w events) ∧
      (lost = [] ↔
        Transition.Along (step telegramUserId) (DropsNothing telegramUserId) w events) := by
  induction events using List.reverseRecOn with
  | nil => exact ⟨[], hw.accounted, by simp⟩
  | append_singleton events event ih =>
      obtain ⟨lost, haccounted, hlost⟩ := ih
      rw [Transition.run_snoc, Transition.along_snoc, ← hlost]
      exact ⟨_, haccounted.step event, List.append_eq_nil_iff.trans and_comm⟩

/-- **Once all handlers have finished, the only result lists and posters in the chat are those the
row records, exactly when no step of the run has dropped a message.** -/
theorem no_orphans_iff_drops_nothing (hw : w.Settled telegramUserId) (events : List ScreenEvent)
    (hfinished : (Transition.run (step telegramUserId) w events).AllFinished) :
    (Transition.run (step telegramUserId) w events).NoOrphans telegramUserId ↔
      Transition.Along (step telegramUserId) (DropsNothing telegramUserId) w events := by
  obtain ⟨lost, haccounted, hlost⟩ := hw.accounted_run events
  exact (haccounted.noOrphans_iff hfinished).trans hlost

end Runs

section Witness

attribute [local instance] UnicodeData.asciiArabic

/-- A user who has not searched. -/
def unsearched : SearchScreens := ⟨.empty, [], [], [], []⟩

theorem unsearched_settled : unsearched.Settled 5 :=
  ⟨rfl, List.Perm.refl _, List.nodup_nil, fun _ h => (by cases h), fun _ h => (by cases h)⟩

/-- A search, a film of it, and the way back. -/
def oneFilm : List ScreenEvent :=
  [.message "up".toList true [7] "first".toList, .advance 0 0, .advance 0 100, .advance 0 0,
    .selectMovie "first".toList 7 true true, .advance 1 0, .advance 1 101, .advance 1 0,
    .advance 1 0, .backToResults "first".toList true true, .advance 2 0, .advance 2 0,
    .advance 2 102, .advance 2 0, .advance 2 0]

theorem no_orphans_iff_drops_nothing_oneFilm :
    (Transition.run (step 5) unsearched oneFilm).NoOrphans 5 ↔
      Transition.Along (step 5) (DropsNothing 5) unsearched oneFilm :=
  no_orphans_iff_drops_nothing unsearched_settled oneFilm (by decide +kernel)

/-- Two searches in quick succession after a first one: the second takes over the result list of the
first, its own result list is refused, and message 100 stays. -/
def quickSearches : List ScreenEvent :=
  [.message "up".toList true [7] "first".toList, .advance 0 0, .advance 0 100, .advance 0 0,
    .message "down".toList true [8] "second".toList, .message "left".toList true [9] "third".toList,
    .advance 1 0, .advance 2 0, .advance 1 101, .advance 2 102, .advance 1 0, .advance 2 0,
    .advance 1 0]

theorem quickSearches_orphan :
    unsearched.Settled 5 ∧
      (Transition.run (step 5) unsearched quickSearches).AllFinished ∧
      (Transition.run (step 5) unsearched quickSearches).chat = [102, 100] ∧
      (Transition.run (step 5) unsearched quickSearches).recorded 5 = [102] ∧
      ¬ (Transition.run (step 5) unsearched quickSearches).NoOrphans 5 :=
  ⟨unsearched_settled, by decide +kernel, by decide +kernel, by decide +kernel, by decide +kernel⟩

end Witness

end SearchScreens
end CineGate
