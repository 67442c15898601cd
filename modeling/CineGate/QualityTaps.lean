/-
**The buttons of a film.**

`select_quality` of `bot/user_router.py`.  A tap carries the nonce of a search, a film and a
resolution.  Its handler asks the search session of the user whether the film is open, the archive
whether the film has the resolution and the settings whether ads are set up; then it asks for a
reward session, claims its prompt and sends it.  Every question is a transaction of its own, and
between two of them the other handlers of the application run.  Nothing else asks for reward
sessions.

* `rewardConfig` — the settings of the ads;
* `QualityTap`, `TapPhase` — a handler, and the call it does next;
* `QualityTap.next` — what it makes of the answer;
* `BotWorld`, `BotWorld.step` — the taps and the search sessions beside the endpoints of the mini
  app;
* `TapStep`, `BotWorld.tapsStep` — what an event does to a tap.
-/

import CineGate.RewardEndpoints
import CineGate.RewardPrompts
import CineGate.SearchScreens
import CineGate.OfferedQualities

set_option relaxedAutoImplicit false
set_option autoImplicit false

namespace CineGate

/-! ### Handlers -/

/-- `_reward_config`, from the values of the two settings that are strings. -/
def rewardConfig [UnicodeData] (publicBaseUrl adsgramBlockId : Option Str) : Option (Str × Str) :=
  match publicBaseUrl, adsgramBlockId with
  | some publicBaseUrl, some blockId =>
      if "https://".toList.isPrefixOf publicBaseUrl && !(strip blockId).isEmpty then
        some (publicBaseUrl.rdropWhile (· = '/'), strip blockId)
      else none
  | _, _ => none

/-- How a handler ends: what it tells the user, or that it has raised. -/
inductive TapResult
  | limited
  | stale
  | movieUnavailable
  | rewardNotConfigured
  | activeRewardConflict (quality : Resolution)
  | alreadyPrepared
  | prompted (messageId : ℕ)
  | discarded (messageId : ℕ)
  | raised
deriving DecidableEq, Repr

/-- The call that a handler does next. -/
inductive TapPhase
  | looking
  | viewing
  | configuring (movieId : ℕ)
  | asking (movieId : ℕ)
  | claiming (sessionId : ℕ)
  | sending (sessionId : ℕ)
  | storing (sessionId messageId : ℕ)
  | resetting (sessionId : ℕ)
  | finished (result : TapResult)
deriving DecidableEq, Repr

/-- A tap on the button of a resolution: what the callback carries, the session its handler has been
given, and whether a crash has dropped it. -/
structure QualityTap where
  id : ℕ
  telegramUserId : ℤ
  nonce : Str
  movieId : ℤ
  quality : Str
  phase : TapPhase
  session : Option ℕ := none
  dropped : Bool := false
deriving DecidableEq, Repr

/-- `get_movie_view`; ids are positive. -/
def ArchiveTables.movieView (t : ArchiveTables) (movieId : ℤ) : Option MovieView :=
  if movieId < 0 then none else t.getMovieView movieId.toNat

namespace QualityTap

/-- The handler has ended. -/
def isFinished (tap : QualityTap) : Bool := tap.phase matches .finished _

/-- A handler that a crash has not dropped goes on. -/
def goOn (f : QualityTap → QualityTap) (tap : QualityTap) : QualityTap :=
  if tap.dropped then tap else f tap

theorem id_goOn {f : QualityTap → QualityTap} (hf : ∀ tap, (f tap).id = tap.id) (tap : QualityTap) :
    (goOn f tap).id = tap.id := by
  unfold goOn
  split
  · rfl
  · exact hf tap

/-- A crash drops a handler that has not ended. -/
def interrupt (tap : QualityTap) : QualityTap :=
  if tap.isFinished then tap else { tap with dropped := true }

@[simp] theorem id_interrupt (tap : QualityTap) : tap.interrupt.id = tap.id := by
  unfold interrupt
  split <;> rfl

/-- What a handler makes of the search session of its user. -/
def look (tap : QualityTap) (searches : SearchSessions) : TapPhase :=
  match searches.getCurrent tap.telegramUserId tap.nonce with
  | none => .finished .stale
  | some current =>
      if current.state ≠ .movie || current.selectedMovieId ≠ some tap.movieId then .finished .stale
      else .viewing

/-- What a handler makes of the view of the film. -/
def view (tap : QualityTap) (archive : ArchiveTables) : TapPhase :=
  match archive.movieView tap.movieId with
  | none => .finished .movieUnavailable
  | some view =>
      if tap.quality ∈ view.qualities then .configuring view.movieId
      else .finished .movieUnavailable

/-- What a handler makes of the answer of `get_or_create`. -/
def ask (tap : QualityTap) (db : Db) (movieId newId : ℕ) (clock : Clock) : QualityTap :=
  match getOrCreate db tap.telegramUserId movieId tap.quality newId clock with
  | .ok (_, (view, _)) => { tap with phase := .claiming view.id, session := some view.id }
  | .error (.activeRewardConflict session) =>
      { tap with phase := .finished (.activeRewardConflict session.quality) }
  | .error .qualityUnavailable => { tap with phase := .finished .movieUnavailable }
  | .error _ => { tap with phase := .finished .raised }

/-- What a handler makes of its next call to a database; `newId` is the identifier that a new
session would get. -/
def next [UnicodeData] (tap : QualityTap) (searches : SearchSessions) (db : Db)
    (publicBaseUrl adsgramBlockId : Option Str) (newId : ℕ) (clock : Clock) : QualityTap :=
  match tap.phase with
  | .looking => { tap with phase := tap.look searches }
  | .viewing => { tap with phase := tap.view db.archive }
  | .configuring movieId =>
      { tap with
        phase := if (rewardConfig publicBaseUrl adsgramBlockId).isSome then .asking movieId
          else .finished .rewardNotConfigured }
  | .asking movieId => tap.ask db movieId newId clock
  | .claiming sessionId =>
      { tap with
        phase := match claimPrompt db sessionId tap.telegramUserId clock with
          | .ok (_, true) => .sending sessionId
          | .ok (_, false) => .finished .alreadyPrepared
          | .error _ => .finished .raised }
  | .storing sessionId messageId =>
      { tap with
        phase := match completePrompt db sessionId tap.telegramUserId messageId clock with
          | .ok (_, true) => .finished (.prompted messageId)
          | .ok (_, false) => .finished (.discarded messageId)
          | .error _ => .finished .raised }
  | .resetting _ => { tap with phase := .finished .raised }
  | _ => tap

/-- The event of the system that the next call is. -/
def event? (tap : QualityTap) (newId : ℕ) (clock : Clock) : Option Event :=
  match tap.phase with
  | .asking movieId => some (.getOrCreate tap.telegramUserId movieId tap.quality newId clock)
  | .claiming sessionId => some (.claimPrompt sessionId tap.telegramUserId clock)
  | .storing sessionId messageId =>
      some (.completePrompt sessionId tap.telegramUserId messageId clock)
  | .resetting sessionId => some (.resetPromptClaim sessionId tap.telegramUserId)
  | _ => none

/-- What a handler makes of Telegram's answer to `_send_rendered`. -/
def send (tap : QualityTap) (answer : SendAnswer) : QualityTap :=
  match tap.phase, answer with
  | .sending sessionId, .sent messageId => { tap with phase := .storing sessionId messageId }
  | .sending sessionId, .failed => { tap with phase := .resetting sessionId }
  | _, _ => tap

/-- A call to the database has raised. -/
def fail (tap : QualityTap) : QualityTap :=
  if tap.isFinished then tap else { tap with phase := .finished .raised }

/-- What the callback carries, with its user. -/
def Same (tap tap' : QualityTap) : Prop :=
  tap'.id = tap.id ∧ tap'.telegramUserId = tap.telegramUserId ∧ tap'.nonce = tap.nonce ∧
    tap'.movieId = tap.movieId ∧ tap'.quality = tap.quality

theorem same_ask (tap : QualityTap) (db : Db) (movieId newId : ℕ) (clock : Clock) :
    tap.Same (tap.ask db movieId newId clock) := by
  unfold ask
  split <;> exact ⟨rfl, rfl, rfl, rfl, rfl⟩

theorem same_next [UnicodeData] (tap : QualityTap) (searches : SearchSessions) (db : Db)
    (publicBaseUrl adsgramBlockId : Option Str) (newId : ℕ) (clock : Clock) :
    tap.Same (tap.next searches db publicBaseUrl adsgramBlockId newId clock) := by
  unfold next
  split
  · exact ⟨rfl, rfl, rfl, rfl, rfl⟩
  · exact ⟨rfl, rfl, rfl, rfl, rfl⟩
  · exact ⟨rfl, rfl, rfl, rfl, rfl⟩
  · exact tap.same_ask db _ newId clock
  · exact ⟨rfl, rfl, rfl, rfl, rfl⟩
  · exact ⟨rfl, rfl, rfl, rfl, rfl⟩
  · exact ⟨rfl, rfl, rfl, rfl, rfl⟩
  · exact ⟨rfl, rfl, rfl, rfl, rfl⟩

theorem same_send (tap : QualityTap) (answer : SendAnswer) : tap.Same (tap.send answer) := by
  unfold send
  split <;> exact ⟨rfl, rfl, rfl, rfl, rfl⟩

end QualityTap

/-! ### The bot -/

/-- What a search of a user has found. -/
structure FoundFilms where
  telegramUserId : ℤ
  nonce : Str
  movieIds : List ℤ
deriving DecidableEq, Repr

/-- The taps and the search sessions beside the endpoints of the mini app, with the settings of the
ads and with what the searches have found. -/
structure BotWorld where
  web : WebWorld
  searches : SearchWorld := .initial
  found : List FoundFilms := []
  taps : KeyedTable QualityTap QualityTap.id := .empty
  publicBaseUrl : Option Str := none
  adsgramBlockId : Option Str := none

inductive BotEvent
  | web (event : WebEvent)
  | search (handler : ℕ) (call : SearchCall)
  | tap (telegramUserId : ℤ) (nonce : Str) (movieId : ℤ) (quality : Str) (allowed : Bool)
  | next (tapId newId : ℕ) (clock : Clock)
  | sent (tapId : ℕ) (answer : SendAnswer)
  | databaseError (tapId : ℕ)
  | configure (publicBaseUrl adsgramBlockId : Option Str)

/-- The handlers of taps alone cause the event. -/
def Event.isTap : Event → Bool
  | .getOrCreate .. | .claimPrompt .. | .completePrompt .. | .resetPromptClaim .. => true
  | _ => false

/-- The handlers of taps alone cause the event. -/
def WebEvent.isTap : WebEvent → Bool
  | .system event => event.isTap
  | _ => false

namespace BotWorld

/-- A handler goes on. -/
def updateTap (w : BotWorld) (tapId : ℕ) (f : QualityTap → QualityTap)
    (hf : ∀ tap, (f tap).id = tap.id) : BotWorld :=
  { w with taps := w.taps.modifyAt tapId (QualityTap.goOn f) (QualityTap.id_goOn hf) }

variable [UnicodeData]

/-- The event of the endpoints that an event is. -/
def emits (w : BotWorld) : BotEvent → Option WebEvent
  | .web event => if event.isTap then none else some event
  | .next tapId newId clock =>
      (w.taps.find? tapId).bind fun tap =>
        if tap.dropped then none else (tap.event? newId clock).map .system
  | _ => none

/-- What the searches have found after a call; a refused one is rolled back. -/
def foundAfter (w : BotWorld) (call : SearchCall) : List FoundFilms :=
  match w.searches.sessions.call call, call with
  | .ok _, .replace telegramUserId _ _ resultMovieIds newNonce =>
      ⟨telegramUserId, newNonce, resultMovieIds⟩ :: w.found
  | _, _ => w.found

/-- The bot after an event. -/
def advance (w : BotWorld) : BotEvent → BotWorld
  | .web .crash =>
      { w with taps := w.taps.modify QualityTap.interrupt QualityTap.id_interrupt }
  | .web _ => w
  | .search handler call =>
      { w with searches := w.searches.step (handler, call), found := w.foundAfter call }
  | .tap telegramUserId nonce movieId quality allowed =>
      { w with
        taps := w.taps.insert {
          id := w.taps.freshKey
          telegramUserId
          nonce
          movieId
          quality
          phase := if allowed then .looking else .finished .limited } }
  | .next tapId newId clock =>
      w.updateTap tapId
        (fun tap =>
          tap.next w.searches.sessions w.web.system.db w.publicBaseUrl w.adsgramBlockId newId clock)
        fun tap => (tap.same_next _ _ _ _ newId clock).1
  | .sent tapId answer => w.updateTap tapId (·.send answer) fun tap => (tap.same_send answer).1
  | .databaseError tapId =>
      w.updateTap tapId QualityTap.fail (by intro tap; unfold QualityTap.fail; split <;> rfl)
  | .configure publicBaseUrl adsgramBlockId => { w with publicBaseUrl, adsgramBlockId }

variable (parser : ArchiveParser)

/-- One event. -/
def step (w : BotWorld) (event : BotEvent) : BotWorld :=
  { w.advance event with web := ((w.emits event).map (WebWorld.step parser w.web)).getD w.web }

/-- Nobody has searched or tapped. -/
def initial (web : WebSettings) (settings : Settings) (archive : ArchiveTables) : BotWorld where
  web := WebWorld.initial web settings archive

/-- The state after a run. -/
abbrev after (w : BotWorld) (events : List BotEvent) : BotWorld :=
  Transition.run (step parser) w events

/-- The endpoints after an event. -/
theorem web_step (w : BotWorld) (event : BotEvent) :
    (w.step parser event).web = w.web ∨
      ∃ e, w.emits event = some e ∧ (w.step parser event).web = WebWorld.step parser w.web e := by
  rw [step]
  cases w.emits event with
  | none => exact .inl rfl
  | some e => exact .inr ⟨e, rfl, rfl⟩

end BotWorld

/-! ### What an event does to a tap -/

/-- The moves of a tap. -/
inductive TapStep [UnicodeData] (w : BotWorld) (event : BotEvent) : QualityTap → QualityTap → Prop
  | idle (tap : QualityTap) : TapStep w event tap tap
  | moved (tap : QualityTap) (newId : ℕ) (clock : Clock) (hopen : tap.dropped = false)
      (he : event = .next tap.id newId clock) :
      TapStep w event tap (tap.next w.searches.sessions w.web.system.db w.publicBaseUrl
        w.adsgramBlockId newId clock)
  | sent (tap : QualityTap) (answer : SendAnswer) : TapStep w event tap (tap.send answer)
  | failed (tap : QualityTap) : TapStep w event tap tap.fail
  | dropped (tap : QualityTap) : TapStep w event tap tap.interrupt

/-- A move leaves a tap what its callback carries. -/
theorem TapStep.same [UnicodeData] {w : BotWorld} {event : BotEvent} {tap tap' : QualityTap}
    (h : TapStep w event tap tap') : tap.Same tap' := by
  cases h with
  | idle => exact ⟨rfl, rfl, rfl, rfl, rfl⟩
  | moved newId clock hopen he => exact tap.same_next _ _ _ _ newId clock
  | sent answer => exact tap.same_send answer
  | failed =>
      unfold QualityTap.fail
      split <;> exact ⟨rfl, rfl, rfl, rfl, rfl⟩
  | dropped =>
      unfold QualityTap.interrupt
      split <;> exact ⟨rfl, rfl, rfl, rfl, rfl⟩

namespace BotWorld

variable [UnicodeData] {parser : ArchiveParser} {w : BotWorld} {event : BotEvent}

/-- The taps after an event: those from before have moved, and there may be one that has come in. -/
structure TapsStep (w : BotWorld) (event : BotEvent) (taps : KeyedTable QualityTap QualityTap.id) :
    Prop where
  goes : ∀ tap ∈ w.taps, ∃ tap' ∈ taps, TapStep w event tap tap'
  comes : ∀ tap' ∈ taps, (∃ tap ∈ w.taps, TapStep w event tap tap') ∨
    tap'.session = none ∧ (tap'.phase = .looking ∨ tap'.phase = .finished .limited)

theorem tapsStep_self : TapsStep w event w.taps :=
  ⟨fun tap htap => ⟨tap, htap, .idle tap⟩, fun tap htap => .inl ⟨tap, htap, .idle tap⟩⟩

/-- Writing to one tap, by a move. -/
theorem tapsStep_updateTap {tapId : ℕ} {f : QualityTap → QualityTap}
    {hf : ∀ tap, (f tap).id = tap.id}
    (h : ∀ tap ∈ w.taps, tap.id = tapId → tap.dropped = false → TapStep w event tap (f tap)) :
    TapsStep w event (w.updateTap tapId f hf).taps := by
  have hmem : ∀ tap', tap' ∈ w.taps.modifyAt tapId (QualityTap.goOn f) (QualityTap.id_goOn hf) ↔
      (tap' ∈ w.taps ∧ tap'.id ≠ tapId) ∨ ∃ tap ∈ w.taps, tap.id = tapId ∧ tap.goOn f = tap' :=
    fun tap' => KeyedTable.mem_modifyAt
  have hmove : ∀ tap ∈ w.taps, tap.id = tapId → TapStep w event tap (tap.goOn f) := by
    intro tap htap hid
    unfold QualityTap.goOn
    split
    · exact .idle tap
    · next hopen => exact h tap htap hid (by simpa using hopen)
  refine ⟨fun tap htap => ?_, fun tap' htap' => .inl ?_⟩
  · by_cases hid : tap.id = tapId
    · exact ⟨tap.goOn f, (hmem _).2 (.inr ⟨tap, htap, hid, rfl⟩), hmove tap htap hid⟩
    · exact ⟨tap, (hmem tap).2 (.inl ⟨htap, hid⟩), .idle tap⟩
  · rcases (hmem tap').1 htap' with ⟨htap', -⟩ | ⟨tap, htap, hid, rfl⟩
    · exact ⟨tap', htap', .idle tap'⟩
    · exact ⟨tap, htap, hmove tap htap hid⟩

/-- **The taps after an event.** -/
theorem tapsStep (w : BotWorld) (event : BotEvent) :
    TapsStep w event (w.step parser event).taps := by
  cases event with
  | web event =>
      cases event with
      | crash =>
          have hmem : ∀ tap', tap' ∈ w.taps.modify QualityTap.interrupt QualityTap.id_interrupt ↔
              ∃ tap ∈ w.taps, tap.interrupt = tap' := fun tap' => KeyedTable.mem_modify
          refine ⟨fun tap htap => ⟨tap.interrupt, (hmem _).2 ⟨tap, htap, rfl⟩, .dropped tap⟩,
            fun tap' htap' => ?_⟩
          obtain ⟨tap, htap, rfl⟩ := (hmem tap').1 htap'
          exact .inl ⟨tap, htap, .dropped tap⟩
      | _ => exact tapsStep_self
  | search handler call => exact tapsStep_self
  | tap telegramUserId nonce movieId quality allowed =>
      simp only [step, advance]
      refine ⟨fun tap htap => ⟨tap, ?_, .idle tap⟩, fun tap' htap' => ?_⟩
      · exact (KeyedTable.mem_insert (KeyedTable.find?_freshKey w.taps)).2 (.inr htap)
      · rcases KeyedTable.mem_of_mem_insert htap' with rfl | htap'
        · refine .inr ⟨rfl, ?_⟩
          cases allowed
          · exact .inr rfl
          · exact .inl rfl
        · exact .inl ⟨tap', htap', .idle tap'⟩
  | next tapId newId clock =>
      simp only [step, advance]
      exact tapsStep_updateTap fun tap _ hid hopen => .moved tap newId clock hopen (by rw [hid])
  | sent tapId answer =>
      simp only [step, advance]
      exact tapsStep_updateTap fun tap _ _ _ => .sent tap answer
  | databaseError tapId =>
      simp only [step, advance]
      exact tapsStep_updateTap fun tap _ _ _ => .failed tap
  | configure publicBaseUrl adsgramBlockId => exact tapsStep_self

end BotWorld
end CineGate
