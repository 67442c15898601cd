/-
**The search sessions of the users.**

The transactions of `services/search_sessions.py`.  A user has one row, and it holds the nonce of
the user's latest search.  Every other call names the nonce of the search it belongs to;
`claim_movie` and `claim_back` lock the row and look at its state, the remaining calls are single
`UPDATE`s whose `WHERE` clause does.

* `SearchSessions.replace` — a new search;
* `SearchSessions.setResultMessage`, `SearchSessions.claimMovie`, `SearchSessions.completeMovie`,
  `SearchSessions.resetOpening`, `SearchSessions.claimBack`, `SearchSessions.completeBack`,
  `SearchSessions.resetReturning` — the calls of one search;
* `SearchCall`, `SearchSessions.call` — the calls as values;
* `SearchWorld` — the rows, together with the claims that are open.
-/

import CineGate.Domain

set_option relaxedAutoImplicit false
set_option autoImplicit false

namespace CineGate

inductive SearchState
  | results
  | opening
  | movie
  | returning
deriving DecidableEq, Repr

/-- A row of `user_search_sessions`. -/
structure UserSearchSession where
  telegramUserId : ℤ
  nonce : Str
  rawQuery : Str
  normalizedQuery : Str
  resultMovieIds : List ℤ
  state : SearchState
  selectedMovieId : Option ℤ
  resultMessageId : Option ℤ
  posterMessageId : Option ℤ
deriving DecidableEq, Repr

/-- The table `user_search_sessions`. -/
abbrev SearchSessions := KeyedTable UserSearchSession UserSearchSession.telegramUserId

/-- What the database refuses: a value that does not fit its column, or a movie that does not
exist. -/
inductive SearchSessionError
  | dataError
  | foreignKeyViolation
deriving DecidableEq, Repr

/-- `SearchSessionReplacement`. -/
structure SearchSessionReplacement where
  session : UserSearchSession
  previousResultMessageId : Option ℤ
  previousPosterMessageId : Option ℤ
deriving DecidableEq, Repr

/-- The value is a `BIGINT`. -/
def isBigint (n : ℤ) : Bool := -9223372036854775808 ≤ n && n ≤ 9223372036854775807

namespace UserSearchSession

/-- The texts fit their columns. -/
def fitsColumns (s : UserSearchSession) : Bool :=
  s.nonce.length ≤ 16 && s.rawQuery.length ≤ 128 && s.normalizedQuery.length ≤ 512

/-- The row of a user who has not searched before. -/
def ofSearch (telegramUserId : ℤ) (nonce rawQuery normalizedQuery : Str)
    (resultMovieIds : List ℤ) : UserSearchSession where
  telegramUserId := telegramUserId
  nonce := nonce
  rawQuery := rawQuery
  normalizedQuery := normalizedQuery
  resultMovieIds := resultMovieIds
  state := .results
  selectedMovieId := none
  resultMessageId := none
  posterMessageId := none

/-- The row of a user who has. -/
def restart (nonce rawQuery normalizedQuery : Str) (resultMovieIds : List ℤ)
    (s : UserSearchSession) : UserSearchSession :=
  { s with
    nonce
    rawQuery
    normalizedQuery
    resultMovieIds
    state := .results
    selectedMovieId := none
    resultMessageId := none
    posterMessageId := none }

@[simp] theorem telegramUserId_restart {nonce rawQuery normalizedQuery : Str}
    {resultMovieIds : List ℤ} (s : UserSearchSession) :
    (s.restart nonce rawQuery normalizedQuery resultMovieIds).telegramUserId = s.telegramUserId :=
  rfl

/-- The row is that of the nonce and in the state. -/
def isAt (s : UserSearchSession) (nonce : Str) (state : SearchState) : Bool :=
  s.nonce = nonce && s.state = state

end UserSearchSession

namespace SearchSessions

/-- A transaction on the table. -/
abbrev Transaction (α : Type) := Except SearchSessionError (SearchSessions × α)

/-- `replace`; `nonce` is the token it draws. -/
def replace (t : SearchSessions) (telegramUserId : ℤ) (rawQuery normalizedQuery : Str)
    (resultMovieIds : List ℤ) (nonce : Str) : Transaction SearchSessionReplacement :=
  if !isBigint telegramUserId then .error .dataError
  else
    match t.find? telegramUserId with
    | none =>
        let session := UserSearchSession.ofSearch telegramUserId nonce rawQuery normalizedQuery
          resultMovieIds
        if !session.fitsColumns then .error .dataError
        else .ok (t.insert session, ⟨session, none, none⟩)
    | some current =>
        let session := current.restart nonce rawQuery normalizedQuery resultMovieIds
        if !session.fitsColumns then .error .dataError
        else
          .ok (t.modifyAt telegramUserId
              (UserSearchSession.restart nonce rawQuery normalizedQuery resultMovieIds)
              UserSearchSession.telegramUserId_restart,
            ⟨session, current.resultMessageId, current.posterMessageId⟩)

/-- An `UPDATE` with the parameters `params` of the row of the user that `guard` selects; whether it
has changed a row. -/
def updateWhere (t : SearchSessions) (params : List ℤ) (telegramUserId : ℤ)
    (guard : UserSearchSession → Bool) (f : UserSearchSession → UserSearchSession)
    (hf : ∀ s, (f s).telegramUserId = s.telegramUserId) : Transaction Bool :=
  if !(telegramUserId :: params).all isBigint then .error .dataError
  else
    match t.find? telegramUserId with
    | none => .ok (t, false)
    | some current =>
        if guard current then .ok (t.modifyAt telegramUserId f hf, true) else .ok (t, false)

/-- `set_result_message`. -/
def setResultMessage (t : SearchSessions) (telegramUserId : ℤ) (nonce : Str) (messageId : ℤ) :
    Transaction Bool :=
  t.updateWhere [messageId] telegramUserId (fun s => s.isAt nonce .results)
    (fun s => { s with resultMessageId := some messageId }) fun _ => rfl

/-- `claim_movie`; `movieExists` says whether the movie is in the table `movies`. -/
def claimMovie (t : SearchSessions) (telegramUserId : ℤ) (nonce : Str) (movieId : ℤ)
    (movieExists : Bool) : Transaction (Option UserSearchSession) :=
  if !isBigint telegramUserId then .error .dataError
  else
    match t.find? telegramUserId with
    | none => .ok (t, none)
    | some current =>
        if current.nonce ≠ nonce || current.state ≠ .results ||
            !current.resultMovieIds.contains movieId then .ok (t, none)
        else if !isBigint movieId then .error .dataError
        else if !movieExists then .error .foreignKeyViolation
        else
          .ok (t.modifyAt telegramUserId
              (fun s => { s with state := .opening, selectedMovieId := some movieId })
              (fun _ => rfl),
            some { current with state := .opening, selectedMovieId := some movieId })

/-- `complete_movie`. -/
def completeMovie (t : SearchSessions) (telegramUserId : ℤ) (nonce : Str) (movieId : ℤ)
    (posterMessageId : ℤ) : Transaction Bool :=
  t.updateWhere [movieId, posterMessageId] telegramUserId
    (fun s => s.isAt nonce .opening && s.selectedMovieId = some movieId)
    (fun s => { s with
      state := .movie
      posterMessageId := some posterMessageId
      resultMessageId := none }) fun _ => rfl

/-- `reset_opening`. -/
def resetOpening (t : SearchSessions) (telegramUserId : ℤ) (nonce : Str) (movieId : ℤ) :
    Transaction Bool :=
  t.updateWhere [movieId] telegramUserId
    (fun s => s.isAt nonce .opening && s.selectedMovieId = some movieId)
    (fun s => { s with state := .results, selectedMovieId := none }) fun _ => rfl

/-- `claim_back`. -/
def claimBack (t : SearchSessions) (telegramUserId : ℤ) (nonce : Str) :
    Transaction (Option UserSearchSession) :=
  if !isBigint telegramUserId then .error .dataError
  else
    match t.find? telegramUserId with
    | none => .ok (t, none)
    | some current =>
        if current.nonce ≠ nonce || current.state ≠ .movie then .ok (t, none)
        else
          .ok (t.modifyAt telegramUserId (fun s => { s with state := .returning }) (fun _ => rfl),
            some { current with state := .returning })

/-- `complete_back`. -/
def completeBack (t : SearchSessions) (telegramUserId : ℤ) (nonce : Str) (resultMessageId : ℤ) :
    Transaction Bool :=
  t.updateWhere [resultMessageId] telegramUserId (fun s => s.isAt nonce .returning)
    (fun s => { s with
      state := .results
      selectedMovieId := none
      resultMessageId := some resultMessageId
      posterMessageId := none }) fun _ => rfl

/-- `reset_returning`. -/
def resetReturning (t : SearchSessions) (telegramUserId : ℤ) (nonce : Str) : Transaction Bool :=
  t.updateWhere [] telegramUserId (fun s => s.isAt nonce .returning)
    (fun s => { s with state := .movie }) fun _ => rfl

end SearchSessions

/-! ### Calls -/

/-- What a claim is for. -/
inductive ClaimPurpose
  | movie (movieId : ℤ)
  | back
deriving DecidableEq, Repr

/-- A call of the service. -/
inductive SearchCall
  | replace (telegramUserId : ℤ) (rawQuery normalizedQuery : Str) (resultMovieIds : List ℤ)
      (newNonce : Str)
  | setResultMessage (telegramUserId : ℤ) (nonce : Str) (messageId : ℤ)
  | claimMovie (telegramUserId : ℤ) (nonce : Str) (movieId : ℤ) (movieExists : Bool)
  | completeMovie (telegramUserId : ℤ) (nonce : Str) (movieId : ℤ) (posterMessageId : ℤ)
  | resetOpening (telegramUserId : ℤ) (nonce : Str) (movieId : ℤ)
  | claimBack (telegramUserId : ℤ) (nonce : Str)
  | completeBack (telegramUserId : ℤ) (nonce : Str) (resultMessageId : ℤ)
  | resetReturning (telegramUserId : ℤ) (nonce : Str)
deriving DecidableEq, Repr

/-- What a call returns. -/
inductive SearchAnswer
  | replaced (replacement : SearchSessionReplacement)
  | claimed (snapshot : Option UserSearchSession)
  | changed (value : Bool)
deriving DecidableEq, Repr

namespace SearchCall

/-- The user of a call. -/
def telegramUserId : SearchCall → ℤ
  | replace telegramUserId .. | setResultMessage telegramUserId .. | claimMovie telegramUserId ..
  | completeMovie telegramUserId .. | resetOpening telegramUserId .. | claimBack telegramUserId ..
  | completeBack telegramUserId .. | resetReturning telegramUserId .. => telegramUserId

/-- The nonce a call carries. -/
def nonce? : SearchCall → Option Str
  | replace .. => none
  | setResultMessage _ nonce _ | claimMovie _ nonce _ _ | completeMovie _ nonce _ _
  | resetOpening _ nonce _ | claimBack _ nonce | completeBack _ nonce _
  | resetReturning _ nonce => some nonce

/-- The claim a call asks for. -/
def claims? : SearchCall → Option ClaimPurpose
  | claimMovie _ _ movieId _ => some (.movie movieId)
  | claimBack .. => some .back
  | _ => none

/-- The claim a call completes or resets. -/
def ends? : SearchCall → Option ClaimPurpose
  | completeMovie _ _ movieId _ | resetOpening _ _ movieId => some (.movie movieId)
  | completeBack .. | resetReturning .. => some .back
  | _ => none

end SearchCall

/-- A call on the table. -/
def SearchSessions.call (t : SearchSessions) :
    SearchCall → SearchSessions.Transaction SearchAnswer
  | .replace telegramUserId rawQuery normalizedQuery resultMovieIds newNonce =>
      (t.replace telegramUserId rawQuery normalizedQuery resultMovieIds newNonce).map
        (Prod.map id .replaced)
  | .setResultMessage telegramUserId nonce messageId =>
      (t.setResultMessage telegramUserId nonce messageId).map (Prod.map id .changed)
  | .claimMovie telegramUserId nonce movieId movieExists =>
      (t.claimMovie telegramUserId nonce movieId movieExists).map (Prod.map id .claimed)
  | .completeMovie telegramUserId nonce movieId posterMessageId =>
      (t.completeMovie telegramUserId nonce movieId posterMessageId).map (Prod.map id .changed)
  | .resetOpening telegramUserId nonce movieId =>
      (t.resetOpening telegramUserId nonce movieId).map (Prod.map id .changed)
  | .claimBack telegramUserId nonce =>
      (t.claimBack telegramUserId nonce).map (Prod.map id .claimed)
  | .completeBack telegramUserId nonce resultMessageId =>
      (t.completeBack telegramUserId nonce resultMessageId).map (Prod.map id .changed)
  | .resetReturning telegramUserId nonce =>
      (t.resetReturning telegramUserId nonce).map (Prod.map id .changed)

/-! ### The world -/

/-- The claim of a handler that has neither been completed nor reset. -/
structure SearchClaim where
  handler : ℕ
  telegramUserId : ℤ
  nonce : Str
  purpose : ClaimPurpose
deriving DecidableEq, Repr

/-- The claim is one of the nonce. -/
def SearchClaim.isFor (c : SearchClaim) (telegramUserId : ℤ) (nonce : Str) : Bool :=
  c.telegramUserId = telegramUserId && c.nonce = nonce

/-- The table, the nonces each user's searches have drawn and the open claims. -/
structure SearchWorld where
  sessions : SearchSessions
  drawn : List (ℤ × Str)
  claims : List SearchClaim

namespace SearchWorld

/-- No user has searched. -/
def initial : SearchWorld := ⟨.empty, [], []⟩

/-- The nonces drawn after a call that has been carried out. -/
def drawnAfter (w : SearchWorld) : SearchCall → List (ℤ × Str)
  | .replace telegramUserId _ _ _ newNonce => (telegramUserId, newNonce) :: w.drawn
  | _ => w.drawn

/-- The open claims after the call of a handler has been answered: a granted claim is opened, a
completion or reset that has changed the row ends the claim. -/
def claimsAfter (w : SearchWorld) (handler : ℕ) (call : SearchCall) (answer : SearchAnswer) :
    List SearchClaim :=
  match call.nonce?, answer with
  | some nonce, .claimed (some _) =>
      match call.claims? with
      | some purpose => ⟨handler, call.telegramUserId, nonce, purpose⟩ :: w.claims
      | none => w.claims
  | some nonce, .changed true =>
      match call.ends? with
      | some purpose =>
          w.claims.filter fun c => !(c.isFor call.telegramUserId nonce && c.purpose = purpose)
      | none => w.claims
  | _, _ => w.claims

/-- A call by a handler.  A refused transaction is rolled back. -/
def step (w : SearchWorld) (event : ℕ × SearchCall) : SearchWorld :=
  match w.sessions.call event.2 with
  | .ok (sessions, answer) =>
      ⟨sessions, w.drawnAfter event.2, w.claimsAfter event.1 event.2 answer⟩
  | .error _ => w

end SearchWorld
end CineGate
