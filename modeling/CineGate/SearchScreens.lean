/-
**The messages of the search handlers.**

`direct_movie_search`, `select_movie` and `back_to_results` of `bot/user_router.py`.  A handler
sends a result list or copies a poster, records its message in the row of the user, and deletes what
the row showed before.  A handler is a value: where it is, and the locals it still uses; one step of
it is one call, to the table or to Telegram.

Telegram gives a message id out once, and a search draws a nonce the user has not had: a label with
an old one is not enabled, and neither is one whose call the database refuses.

* `ScreenHandler` — a handler between two of its calls;
* `directMovieSearch`, `selectMovie`, `backToResults` — a handler up to its first call;
* `SearchScreens.advance` — the next call of a handler;
* `SearchScreens.step` — an update arrives, or a handler goes on.
-/

import CineGate.SearchSessions
import CineGate.Text

set_option relaxedAutoImplicit false
set_option autoImplicit false

namespace CineGate

/-- `get_current`. -/
def SearchSessions.getCurrent (t : SearchSessions) (telegramUserId : ℤ) (nonce : Str) :
    Option UserSearchSession :=
  (t.find? telegramUserId).filter fun current => current.nonce = nonce

/-! ### Handlers -/

/-- A handler between two calls; the last constructor lists the messages it has yet to delete. -/
inductive ScreenHandler
  | searching (rawQuery : Str) (resultMovieIds : List ℤ) (nonce : Str)
  | replaced (nonce : Str) (previousResult previousPoster : Option ℤ)
  | answered (nonce : Str) (previousResult previousPoster : Option ℤ) (sent : ℤ)
  | selecting (nonce : Str) (movieId : ℤ)
  | opening (nonce : Str) (movieId : ℤ) (claimed : UserSearchSession)
  | copied (nonce : Str) (movieId : ℤ) (claimed : UserSearchSession) (copied : ℤ)
  | looking (nonce : Str) (hasResults : Bool)
  | goingBack (nonce : Str)
  | returning (nonce : Str) (claimed : UserSearchSession)
  | resent (nonce : Str) (claimed : UserSearchSession) (sent : ℤ)
  | deleting (messageIds : List ℤ)
deriving DecidableEq, Repr

/-- `direct_movie_search` up to its first transaction; `allowed` is the decision of the rate limit,
`resultMovieIds` what the search finds and `nonce` the token it is going to draw. -/
def directMovieSearch [UnicodeData] (text : Str) (allowed : Bool) (resultMovieIds : List ℤ)
    (nonce : Str) : ScreenHandler :=
  if text.head? = some '/' then .deleting []
  else
    let rawQuery := strip text
    if rawQuery.isEmpty || !allowed then .deleting []
    else .searching rawQuery resultMovieIds nonce

/-- `select_movie` up to its first transaction; `hasView` says whether the film can be shown. -/
def selectMovie (nonce : Str) (movieId : ℤ) (allowed hasView : Bool) : ScreenHandler :=
  if allowed && hasView then .selecting nonce movieId else .deleting []

/-- `back_to_results` up to its first query; `hasResults` says whether the films of the search can
still be listed. -/
def backToResults (nonce : Str) (allowed hasResults : Bool) : ScreenHandler :=
  if allowed then .looking nonce hasResults else .deleting []

/-- `_cleanup_previous_ui`: the messages it deletes. -/
def cleanupPreviousUi (resultMessageId posterMessageId : Option ℤ) (excludeMessageId : ℤ) :
    List ℤ :=
  (resultMessageId.toList ++ posterMessageId.toList).filter fun id => id ≠ excludeMessageId

/-! ### The chat -/

/-- The table, the handlers of one user, the result lists and posters in the chat, the message ids
Telegram has given out and the nonces the searches have drawn. -/
structure SearchScreens where
  sessions : SearchSessions
  handlers : List ScreenHandler
  chat : List ℤ
  issued : List ℤ
  drawn : List Str

/-- An update of the user arrives, or a handler does its next call; `messageId` is the id Telegram
gives to the message if the call sends one. -/
inductive ScreenEvent
  | message (text : Str) (allowed : Bool) (resultMovieIds : List ℤ) (nonce : Str)
  | selectMovie (nonce : Str) (movieId : ℤ) (allowed hasView : Bool)
  | backToResults (nonce : Str) (allowed hasResults : Bool)
  | advance (handler : ℕ) (messageId : ℤ)
deriving DecidableEq, Repr

namespace SearchScreens

/-- `send_message` and `copy_message`. -/
def send (w : SearchScreens) (messageId : ℤ) : Option SearchScreens :=
  if messageId ∈ w.issued then none
  else some { w with chat := messageId :: w.chat, issued := messageId :: w.issued }

variable [UnicodeData] (telegramUserId : ℤ)

/-- The next call of a handler and what the handler is after it. -/
def advance (w : SearchScreens) (messageId : ℤ) :
    ScreenHandler → Option (SearchScreens × ScreenHandler)
  | .searching rawQuery resultMovieIds nonce =>
      if nonce ∈ w.drawn then none
      else
        match w.sessions.replace telegramUserId (rawQuery.take 128)
            ((normalizeTitle rawQuery).take 512) resultMovieIds nonce with
        | .ok (sessions, replacement) =>
            some ({ w with sessions, drawn := nonce :: w.drawn },
              .replaced nonce replacement.previousResultMessageId
                replacement.previousPosterMessageId)
        | .error _ => none
  | .replaced nonce previousResult previousPoster =>
      (w.send messageId).map fun w => (w, .answered nonce previousResult previousPoster messageId)
  | .answered nonce previousResult previousPoster sent =>
      match w.sessions.setResultMessage telegramUserId nonce sent with
      | .ok (sessions, stored) =>
          some ({ w with sessions },
            .deleting
              (if stored then cleanupPreviousUi previousResult previousPoster sent else [sent]))
      | .error _ => none
  | .selecting nonce movieId =>
      match w.sessions.claimMovie telegramUserId nonce movieId true with
      | .ok (sessions, some claimed) => some ({ w with sessions }, .opening nonce movieId claimed)
      | .ok (sessions, none) => some ({ w with sessions }, .deleting [])
      | .error _ => none
  | .opening nonce movieId claimed =>
      (w.send messageId).map fun w => (w, .copied nonce movieId claimed messageId)
  | .copied nonce movieId claimed copied =>
      match w.sessions.completeMovie telegramUserId nonce movieId copied with
      | .ok (sessions, completed) =>
          some ({ w with sessions },
            .deleting (if completed then claimed.resultMessageId.toList else [copied]))
      | .error _ => none
  | .looking nonce hasResults =>
      match w.sessions.getCurrent telegramUserId nonce with
      | some current =>
          some (w, if current.state = .movie && hasResults then .goingBack nonce else .deleting [])
      | none => some (w, .deleting [])
  | .goingBack nonce =>
      match w.sessions.claimBack telegramUserId nonce with
      | .ok (sessions, some claimed) => some ({ w with sessions }, .returning nonce claimed)
      | .ok (sessions, none) => some ({ w with sessions }, .deleting [])
      | .error _ => none
  | .returning nonce claimed =>
      (w.send messageId).map fun w => (w, .resent nonce claimed messageId)
  | .resent nonce claimed sent =>
      match w.sessions.completeBack telegramUserId nonce sent with
      | .ok (sessions, completed) =>
          some ({ w with sessions },
            .deleting (if completed then claimed.posterMessageId.toList else [sent]))
      | .error _ => none
  | .deleting (messageId :: messageIds) =>
      some ({ w with chat := w.chat.erase messageId }, .deleting messageIds)
  | .deleting [] => none

/-- One step. -/
def step (w : SearchScreens) : ScreenEvent → SearchScreens
  | .message text allowed resultMovieIds nonce =>
      { w with handlers := w.handlers ++ [directMovieSearch text allowed resultMovieIds nonce] }
  | .selectMovie nonce movieId allowed hasView =>
      { w with handlers := w.handlers ++ [CineGate.selectMovie nonce movieId allowed hasView] }
  | .backToResults nonce allowed hasResults =>
      { w with handlers := w.handlers ++ [CineGate.backToResults nonce allowed hasResults] }
  | .advance i messageId =>
      match w.handlers[i]? with
      | none => w
      | some h =>
          match w.advance telegramUserId messageId h with
          | none => w
          | some (w', h') => { w' with handlers := w.handlers.set i h' }

omit [UnicodeData] in
/-- The row of the user. -/
def row? (w : SearchScreens) : Option UserSearchSession := w.sessions.find? telegramUserId

end SearchScreens
end CineGate
