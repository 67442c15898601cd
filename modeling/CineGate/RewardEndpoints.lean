/-
**The endpoints of the mini app.**

`web/rewards.py` and `services/miniapp_auth.py`.  A claim names a session and proves by signed init
data who its user is; a callback of the ad network names a user and proves by a secret that it comes
from the network.  A handler is a chain of transactions and of calls to Telegram, and any number of
them are under way at once, beside everything else the application does.  These handlers are the
only callers of the transactions that record a proof and of those that deliver a film.

* `validateMiniappUser` — the check of the init data, from what its signature check returns;
* `RewardResponse`, `RewardRequest` — the answers, and a request with the point its handler is at;
* `WebWorld`, `WebEvent`, `WebWorld.step` — the handlers beside the other components;
* `WebWorld.history` — the events of the system that a run of the handlers makes;
* `RequestStep`, `WebWorld.requestsStep` — what an event does to a request.
-/

import CineGate.SentCopies
import CineGate.RateLimit

set_option relaxedAutoImplicit false
set_option autoImplicit false

namespace CineGate

/-! ### The identity of a user -/

/-- What the signature check makes of init data: the user, and the time of the signature. -/
structure WebAppInitData where
  userId : Option ℤ
  authDate : Option Instant
deriving DecidableEq, Repr

/-- What `validate_miniapp_user` raises. -/
inductive MiniAppError
  | maxAgeMustBePositive
  | invalidSignature
  | userMissing
  | authDateMissing
  | stale
deriving DecidableEq, Repr

/-- `validate_miniapp_user`, from what the signature check has made of the init data. -/
def validateMiniappUser (parsed : Option WebAppInitData) (maxAgeSeconds : ℤ) (now : Instant) :
    Except MiniAppError ℤ :=
  if maxAgeSeconds ≤ 0 then .error .maxAgeMustBePositive
  else
    match parsed with
    | none => .error .invalidSignature
    | some data =>
        match data.userId, data.authDate with
        | none, _ => .error .userMissing
        | some _, none => .error .authDateMissing
        | some userId, some authDate =>
            if now - authDate < -seconds 30 || seconds maxAgeSeconds < now - authDate then
              .error .stale
            else .ok userId

/-- `_bounded_init_data_max_age`. -/
def boundedInitDataMaxAge : Option ℤ → ℤ
  | none => 600
  | some value => max 60 (min 3600 value)

/-- The bounds of `_bounded_init_data_max_age`. -/
theorem boundedInitDataMaxAge_bounds (value : Option ℤ) :
    60 ≤ boundedInitDataMaxAge value ∧ boundedInitDataMaxAge value ≤ 3600 := by
  cases value with
  | none => decide
  | some value =>
      simp only [boundedInitDataMaxAge]
      omega

/-- **Init data that is accepted** has a good signature, and it was signed by the user not longer
ago than it may be, nor more than half a minute ahead of the clock. -/
theorem validateMiniappUser_eq_ok {parsed : Option WebAppInitData} {maxAgeSeconds : ℤ}
    {now : Instant} {userId : ℤ} (h : validateMiniappUser parsed maxAgeSeconds now = .ok userId) :
    ∃ authDate, parsed = some ⟨some userId, some authDate⟩ ∧ -seconds 30 ≤ now - authDate ∧
      now - authDate ≤ seconds maxAgeSeconds := by
  unfold validateMiniappUser at h
  split at h
  · cases h
  · split at h
    · cases h
    · next data =>
        obtain ⟨dataUser, dataDate⟩ := data
        dsimp only at h
        split at h
        · cases h
        · cases h
        · next authDate =>
            split at h
            · cases h
            · next hfresh =>
                simp only [Bool.or_eq_true, decide_eq_true_eq, not_or, not_lt] at hfresh
                cases h
                exact ⟨authDate, rfl, hfresh⟩

/-! ### Responses -/

/-- The responses of the two handlers. -/
inductive RewardResponse
  | unprocessable
  | tooManyRequests (retryAfter : ℤ)
  | invalidIdentity
  | sessionNotFound
  | sessionExpired
  | userMismatch
  | callbackDisabled
  | invalidCallback
  | unavailable
  | result (status : DeliveryResultStatus) (telegramMessageId : Option ℕ)
  | waitingProvider
  | noContent
  | serverError
deriving DecidableEq, Repr

namespace RewardResponse

/-- The status code. -/
def statusCode : RewardResponse → ℕ
  | .unprocessable => 422
  | .tooManyRequests _ => 429
  | .invalidIdentity => 401
  | .sessionNotFound => 404
  | .sessionExpired => 410
  | .userMismatch => 403
  | .callbackDisabled => 404
  | .invalidCallback => 403
  | .unavailable => 409
  | .result status _ => if status = .delivered then 200 else 202
  | .waitingProvider => 202
  | .noContent => 204
  | .serverError => 500

/-- The request has been turned away. -/
def isRefusal : RewardResponse → Bool
  | .unprocessable | .tooManyRequests _ | .invalidIdentity | .sessionNotFound | .sessionExpired
  | .userMismatch | .callbackDisabled | .invalidCallback => true
  | _ => false

/-- The refusals are the client errors but for the conflict. -/
theorem isRefusal_iff (response : RewardResponse) : response.isRefusal ↔
    400 ≤ response.statusCode ∧ response.statusCode < 500 ∧ response.statusCode ≠ 409 := by
  cases response with
  | result status telegramMessageId => cases status <;> simp [isRefusal, statusCode]
  | tooManyRequests retryAfter => simp [isRefusal, statusCode]
  | _ => decide

/-- The response to an error of `mark_client_completed`. -/
def ofRewardError : RewardError → RewardResponse
  | .sessionNotFound => .sessionNotFound
  | .sessionExpired => .sessionExpired
  | .userMismatch => .userMismatch
  | _ => .serverError

end RewardResponse

/-- The value of the `Retry-After` header. -/
def retryAfterHeader (retryAfter : ℚ) : ℤ := max 1 (retryAfter + 999 / 1000).floor

/-! ### Requests -/

/-- What a request asks for. -/
inductive RewardCall
  | claim (sessionId : ℕ) (initData : Str)
  | callback (secret : Str) (userid : ℤ)
deriving DecidableEq, Repr

/-- The point a handler is at: what it does next. -/
inductive RewardPhase
  | reading
  | marking
  | confirming
  | delivering (sessionId : ℕ)
  | sending (attemptId : ℕ)
  | answered (response : RewardResponse)
deriving DecidableEq, Repr

/-- A request: the user its handler has found, the session whose proof it has recorded, and whether
a crash has dropped it. -/
structure RewardRequest where
  id : ℕ
  call : RewardCall
  phase : RewardPhase
  user : Option ℤ := none
  marked : Option ℕ := none
  dropped : Bool := false
deriving DecidableEq, Repr

namespace RewardRequest

/-- What a handler answers to a result of `deliver`. -/
def respond (request : RewardRequest) (result : DeliveryResult) : RewardResponse :=
  match request.call with
  | .callback .. => .noContent
  | .claim .. =>
      if result.status = .unavailable then .unavailable
      else .result result.status result.telegramMessageId

/-- A proof has been recorded: the film is delivered, or the other proof is waited for. -/
def recorded (request : RewardRequest) (view : RewardSessionView) (waiting : RewardResponse) :
    RewardRequest :=
  { request with
    marked := some view.id
    phase := if view.isRewarded then .delivering view.id else .answered waiting }

/-- The second transaction of `deliver`, once Telegram has answered. -/
def complete (request : RewardRequest) (w : World) (attemptId : ℕ) (clock : Clock) :
    RewardRequest :=
  match w.attempts.find? attemptId with
  | none => request
  | some attempt =>
      match attempt.phase with
      | .copied messageId =>
          match finalizeSent w.db attempt.sessionId attempt.prepared.deliveryId messageId
              attempt.prepared.deleteSeconds clock with
          | .ok (_, result) => { request with phase := .answered (request.respond result) }
          | .error _ => { request with phase := .answered .serverError }
      | .refused error =>
          match resetFailedSend w.db attempt.sessionId attempt.prepared.deliveryId error.text
              (if error.missingSource then some .archiveSourceMissing else none) clock with
          | .ok _ =>
              { request with
                phase := .answered (request.respond
                  { status := if error.missingSource then .unavailable else .retryable }) }
          | .error _ => { request with phase := .answered .serverError }
      | _ => request

/-- What a handler makes of its next transaction. -/
def transact (request : RewardRequest) (w : World) (clock : Clock) (render : CaptionRenderer) :
    RewardRequest :=
  match request.phase, request.call, request.user with
  | .marking, .claim sessionId _, some telegramUserId =>
      match markClientCompleted w.db sessionId telegramUserId clock with
      | .ok (_, view) => request.recorded view .waitingProvider
      | .error error => { request with phase := .answered (.ofRewardError error) }
  | .confirming, .callback _ userid, _ =>
      match markProviderConfirmed w.db userid clock with
      | .ok (_, some view) => request.recorded view .noContent
      | .ok (_, none) => { request with phase := .answered .noContent }
      | .error _ => { request with phase := .answered .serverError }
  | .delivering sessionId, _, _ =>
      match prepare w.db render sessionId clock with
      | .ok (_, .inl _) => { request with phase := .sending w.attempts.freshKey }
      | .ok (_, .inr result) => { request with phase := .answered (request.respond result) }
      | .error _ => { request with phase := .answered .serverError }
  | .sending attemptId, _, _ => request.complete w attemptId clock
  | _, _, _ => request

/-- The event of the system that the next transaction is. -/
def event? (request : RewardRequest) (clock : Clock) (render : CaptionRenderer) : Option Event :=
  match request.phase, request.call, request.user with
  | .marking, .claim sessionId _, some telegramUserId =>
      some (.markClientCompleted sessionId telegramUserId clock)
  | .confirming, .callback _ userid, _ => some (.markProviderConfirmed userid clock)
  | .delivering sessionId, _, _ => some (.prepare sessionId render clock)
  | .sending attemptId, _, _ => some (.complete attemptId clock)
  | _, _, _ => none

/-- What a transaction makes of a request, from what the database has answered. -/
inductive Transacts (w : World) (clock : Clock) (render : CaptionRenderer) (q : RewardRequest) :
    RewardRequest → Prop
  | idle : Transacts w clock render q q
  | notClaimed (sessionId : ℕ) (initData : Str) (telegramUserId : ℤ) (error : RewardError)
      (hphase : q.phase = .marking) (hcall : q.call = .claim sessionId initData)
      (huser : q.user = some telegramUserId)
      (h : markClientCompleted w.db sessionId telegramUserId clock = .error error) :
      Transacts w clock render q { q with phase := .answered (.ofRewardError error) }
  | claimed (sessionId : ℕ) (initData : Str) (telegramUserId : ℤ) (db : Db)
      (view : RewardSessionView)
      (hphase : q.phase = .marking) (hcall : q.call = .claim sessionId initData)
      (huser : q.user = some telegramUserId)
      (h : markClientCompleted w.db sessionId telegramUserId clock = .ok (db, view)) :
      Transacts w clock render q (q.recorded view .waitingProvider)
  | notConfirmed (secret : Str) (userid : ℤ) (db : Db) (hphase : q.phase = .confirming)
      (hcall : q.call = .callback secret userid)
      (h : markProviderConfirmed w.db userid clock = .ok (db, none)) :
      Transacts w clock render q { q with phase := .answered .noContent }
  | confirmed (secret : Str) (userid : ℤ) (db : Db) (view : RewardSessionView)
      (hphase : q.phase = .confirming) (hcall : q.call = .callback secret userid)
      (h : markProviderConfirmed w.db userid clock = .ok (db, some view)) :
      Transacts w clock render q (q.recorded view .noContent)
  | prepared (sessionId : ℕ) (db : Db) (p : PreparedDelivery)
      (hphase : q.phase = .delivering sessionId)
      (h : prepare w.db render sessionId clock = .ok (db, .inl p)) :
      Transacts w clock render q { q with phase := .sending w.attempts.freshKey }
  | settled (sessionId : ℕ) (db : Db) (result : DeliveryResult)
      (hphase : q.phase = .delivering sessionId)
      (h : prepare w.db render sessionId clock = .ok (db, .inr result)) :
      Transacts w clock render q { q with phase := .answered (q.respond result) }
  | sent (attemptId : ℕ) (attempt : SendAttempt) (messageId : ℕ) (db : Db) (result : DeliveryResult)
      (hphase : q.phase = .sending attemptId) (hattempt : w.attempts.find? attemptId = some attempt)
      (hcopied : attempt.phase = .copied messageId)
      (h : finalizeSent w.db attempt.sessionId attempt.prepared.deliveryId messageId
        attempt.prepared.deleteSeconds clock = .ok (db, result)) :
      Transacts w clock render q { q with phase := .answered (q.respond result) }
  | notSent (attemptId : ℕ) (attempt : SendAttempt) (error : TelegramError) (db : Db)
      (hphase : q.phase = .sending attemptId) (hattempt : w.attempts.find? attemptId = some attempt)
      (hrefused : attempt.phase = .refused error)
      (h : resetFailedSend w.db attempt.sessionId attempt.prepared.deliveryId error.text
        (if error.missingSource then some .archiveSourceMissing else none) clock = .ok (db, ())) :
      Transacts w clock render q { q with phase := .answered (q.respond
        { status := if error.missingSource then .unavailable else .retryable }) }
  | failed (hphase : q.phase ≠ .marking) :
      Transacts w clock render q { q with phase := .answered .serverError }

theorem transacts_complete {w : World} {clock : Clock} {render : CaptionRenderer}
    {q : RewardRequest} {attemptId : ℕ} (hphase : q.phase = .sending attemptId) :
    q.Transacts w clock render (q.complete w attemptId clock) := by
  have hne : q.phase ≠ .marking := by simp [hphase]
  unfold complete
  split
  · exact .idle
  · next attempt hattempt =>
      split
      · next messageId hcopied =>
          split
          · next db result h =>
              exact .sent attemptId attempt messageId db result hphase hattempt hcopied h
          · exact .failed hne
      · next error hrefused =>
          split
          · next value h =>
              exact .notSent attemptId attempt error value.1 hphase hattempt hrefused h
          · exact .failed hne
      · exact .idle

/-- **Every transaction of a handler** is one of these. -/
theorem transacts_transact (q : RewardRequest) (w : World) (clock : Clock)
    (render : CaptionRenderer) :
    q.Transacts w clock render (q.transact w clock render) := by
  unfold transact
  split
  · next sessionId initData telegramUserId hphase hcall huser =>
      split
      · next db view h =>
          exact .claimed sessionId initData telegramUserId db view hphase hcall huser h
      · next error h =>
          exact .notClaimed sessionId initData telegramUserId error hphase hcall huser h
  · next secret userid hphase hcall =>
      split
      · next db view h => exact .confirmed secret userid db view hphase hcall h
      · next db h => exact .notConfirmed secret userid db hphase hcall h
      · exact .failed (by simp [hphase])
  · next sessionId hphase =>
      split
      · next db p h => exact .prepared sessionId db p hphase h
      · next db result h => exact .settled sessionId db result hphase h
      · exact .failed (by simp [hphase])
  · next attemptId hphase => exact transacts_complete hphase
  · exact .idle

/-- A transaction leaves a request its id, what it asks for and its user. -/
theorem Transacts.frame {w : World} {clock : Clock} {render : CaptionRenderer}
    {q q' : RewardRequest}
    (h : q.Transacts w clock render q') : q'.id = q.id ∧ q'.call = q.call ∧ q'.user = q.user := by
  cases h <;> exact ⟨rfl, rfl, rfl⟩

@[simp] theorem id_transact (request : RewardRequest) (w : World) (clock : Clock)
    (render : CaptionRenderer) : (request.transact w clock render).id = request.id :=
  (transacts_transact request w clock render).frame.1

/-- The handler has answered. -/
def isAnswered (request : RewardRequest) : Bool := request.phase matches .answered _

/-- A crash drops a handler that has not answered. -/
def interrupt (request : RewardRequest) : RewardRequest :=
  if request.isAnswered then request else { request with dropped := true }

@[simp] theorem id_interrupt (request : RewardRequest) : request.interrupt.id = request.id := by
  unfold interrupt
  split <;> rfl

end RewardRequest

/-! ### The handlers -/

/-- The keys of the limiter of claims. -/
inductive ClaimKey
  | session (sessionId : ℕ)
  | user (telegramUserId : ℤ)
deriving DecidableEq, Repr

/-- What the handlers are built with: the signature check for the token of the bot, the secret of
the ad network and the limiter of claims. -/
structure WebSettings where
  parseInitData : Str → Option WebAppInitData
  adsgramCallbackSecret : Option Str
  rewardClaim : SlidingWindowLimiter

/-- The system with its web endpoints. -/
structure WebWorld where
  system : World
  settings : WebSettings
  initDataMaxAge : Option SettingValue := none
  claims : OrderedDict ClaimKey (List ℚ) := .empty
  requests : KeyedTable RewardRequest RewardRequest.id := .empty

inductive WebEvent
  | receive (call : RewardCall) (monotonic : ℚ)
  | identify (requestId : ℕ) (clock : Clock) (monotonic : ℚ)
  | transact (requestId : ℕ) (clock : Clock) (render : CaptionRenderer)
  | copied (requestId : ℕ) (answer : CopyAnswer)
  | databaseError (requestId : ℕ)
  | crash
  | changeMaxAge (value : Option SettingValue)
  | system (event : Event)

/-- The request an event is a step of. -/
def WebEvent.requestId? : WebEvent → Option ℕ
  | .identify requestId .. | .transact requestId .. | .copied requestId ..
  | .databaseError requestId =>
      some requestId
  | _ => none

/-- The handlers alone cause the event. -/
def Event.isReward : Event → Bool
  | .markClientCompleted .. | .markProviderConfirmed .. | .prepare .. | .copyMessage
      .. | .complete .. =>
      true
  | _ => false

/-- `secrets.compare_digest` on strings; it raises on a string that is not ASCII. -/
def compareDigest (a b : Str) : Option Bool :=
  if a.all (·.toNat < 128) && b.all (·.toNat < 128) then some (a = b) else none

namespace WebWorld

/-- Write to one request. -/
def updateRequest (w : WebWorld) (requestId : ℕ) (f : RewardRequest → RewardRequest)
    (hf : ∀ request, (f request).id = request.id := by intro _; first | rfl | simp) : WebWorld :=
  { w with requests := w.requests.modifyAt requestId f hf }

/-- A request comes in. -/
def addRequest (w : WebWorld) (call : RewardCall) (phase : RewardPhase) : WebWorld :=
  { w with requests := w.requests.insert { id := w.requests.freshKey, call, phase } }

/-- A handler runs up to its first `await`. -/
def receive (w : WebWorld) (call : RewardCall) (monotonic : ℚ) : WebWorld :=
  match call with
  | .claim sessionId initData =>
      if initData.length < 1 || 8192 < initData.length then
        w.addRequest call (.answered .unprocessable)
      else
        let (claims, decision) :=
          w.settings.rewardClaim.check w.claims (.session sessionId) monotonic
        { w with claims }.addRequest call
          (if decision.allowed then .reading
          else .answered (.tooManyRequests (retryAfterHeader decision.retryAfter)))
  | .callback secret _ =>
      match w.settings.adsgramCallbackSecret with
      | none => w.addRequest call (.answered .callbackDisabled)
      | some expected =>
          w.addRequest call (match compareDigest secret expected with
            | none => .answered .serverError
            | some false => .answered .invalidCallback
            | some true => .confirming)

/-- The handler of a claim has read the setting, and looks who its user is. -/
def identify (w : WebWorld) (requestId : ℕ) (clock : Clock) (monotonic : ℚ) : WebWorld :=
  match w.requests.find? requestId with
  | none => w
  | some request =>
      match request.dropped, request.phase, request.call with
      | false, .reading, .claim _ initData =>
          match getInt w.initDataMaxAge with
          | .error _ => w.updateRequest requestId fun r =>
              { r with phase := .answered .serverError }
          | .ok value =>
              match validateMiniappUser (w.settings.parseInitData initData)
                  (boundedInitDataMaxAge value) clock.utcnow with
              | .error .maxAgeMustBePositive =>
                  w.updateRequest requestId fun r => { r with phase := .answered .serverError }
              | .error _ =>
                  w.updateRequest requestId fun r => { r with phase := .answered .invalidIdentity }
              | .ok telegramUserId =>
                  let (claims, decision) :=
                    w.settings.rewardClaim.check w.claims (.user telegramUserId) monotonic
                  { w with claims }.updateRequest requestId fun r =>
                    { r with
                      user := some telegramUserId
                      phase := if decision.allowed then .marking
                        else .answered (.tooManyRequests (retryAfterHeader decision.retryAfter)) }
      | _, _, _ => w

/-- The event of the system that an event of the handlers is. -/
def emits (w : WebWorld) : WebEvent → Option Event
  | .transact requestId clock render =>
      (w.requests.find? requestId).bind fun request =>
        if request.dropped then none else request.event? clock render
  | .copied requestId answer =>
      (w.requests.find? requestId).bind fun request =>
        match request.phase with
        | .sending attemptId => some (.copyMessage attemptId answer)
        | _ => none
  | .system event => if event.isReward then none else some event
  | _ => none

/-- The handlers after an event; Telegram may copy a film for a handler that a crash has dropped. -/
def advance (w : WebWorld) : WebEvent → WebWorld
  | .receive call monotonic => w.receive call monotonic
  | .identify requestId clock monotonic => w.identify requestId clock monotonic
  | .transact requestId clock render =>
      w.updateRequest requestId
        (fun request => if request.dropped then request else request.transact w.system clock render)
        (by intro request; split <;> simp)
  | .copied _ _ => w
  | .databaseError requestId =>
      w.updateRequest requestId
        (fun request =>
          if request.dropped || request.isAnswered then request
          else { request with phase := .answered .serverError })
        (by intro request; split <;> rfl)
  | .crash =>
      { w with
        claims := .empty
        requests := w.requests.modify RewardRequest.interrupt RewardRequest.id_interrupt }
  | .changeMaxAge value => { w with initDataMaxAge := value }
  | .system _ => w

/-- **The transactions of the handlers** come from a request whose handler runs. -/
theorem emits_eq_some {w : WebWorld} {event : WebEvent} {e : Event} (h : w.emits event = some e) :
    (∃ q ∈ w.requests, ∃ clock render, event = .transact q.id clock render ∧ q.dropped = false ∧
        q.event? clock render = some e) ∨
      (∃ attemptId answer, e = .copyMessage attemptId answer) ∨ e.isReward = false := by
  cases event with
  | transact requestId clock render =>
      obtain ⟨q, hfind, hevent⟩ := Option.bind_eq_some_iff.1 h
      obtain ⟨hq, rfl⟩ := KeyedTable.find?_eq_some.1 hfind
      split at hevent
      · cases hevent
      · next hopen => exact .inl ⟨q, hq, clock, render, rfl, by simpa using hopen, hevent⟩
  | copied requestId answer =>
      obtain ⟨q, -, hevent⟩ := Option.bind_eq_some_iff.1 h
      split at hevent
      · next attemptId _ =>
          cases hevent
          exact .inr (.inl ⟨attemptId, answer, rfl⟩)
      · cases hevent
  | system event =>
      simp only [emits] at h
      split at h
      · cases h
      · next hreward =>
          cases h
          exact .inr (.inr (by simpa using hreward))
  | _ => cases h

theorem emits_transact {w : WebWorld} {q : RewardRequest} (hq : q ∈ w.requests)
    (hopen : q.dropped = false) (clock : Clock) (render : CaptionRenderer) :
    w.emits (.transact q.id clock render) = q.event? clock render := by
  simp [emits, KeyedTable.find?_of_mem hq, hopen]

/-- Telegram's answers apart, an event of the handlers alone is a transaction of one of them. -/
theorem emits_reward {w : WebWorld} {event : WebEvent} {e : Event} (h : w.emits event = some e)
    (hreward : e.isReward) (hcopy : ∀ attemptId answer, e ≠ .copyMessage attemptId answer) :
    ∃ q ∈ w.requests, ∃ clock render, event = .transact q.id clock render ∧ q.dropped = false ∧
      q.event? clock render = some e := by
  rcases emits_eq_some h with h | ⟨attemptId, answer, he⟩ | h
  · exact h
  · exact absurd he (hcopy attemptId answer)
  · rw [h] at hreward
    cases hreward

variable [UnicodeData] (parser : ArchiveParser)

/-- One event. -/
def step (w : WebWorld) (event : WebEvent) : WebWorld :=
  { w.advance event with
    system := ((w.emits event).map (World.step parser w.system)).getD w.system }

/-- The events of the system in a run. -/
def history (w : WebWorld) : List WebEvent → List Event
  | [] => []
  | event :: events => (w.emits event).toList ++ history (w.step parser event) events

/-- No sessions, no deliveries and no requests over any archive. -/
def initial (web : WebSettings) (settings : Settings) (archive : ArchiveTables) : WebWorld where
  system := World.initial settings archive
  settings := web

/-- The state after a run. -/
abbrev after (w : WebWorld) (events : List WebEvent) : WebWorld :=
  Transition.run (step parser) w events

/-- The system after an event. -/
theorem system_step (w : WebWorld) (event : WebEvent) :
    (w.step parser event).system = w.system ∨
      ∃ e, w.emits event = some e ∧ (w.step parser event).system =
        World.step parser w.system e := by
  rw [step]
  cases w.emits event with
  | none => exact .inl rfl
  | some e => exact .inr ⟨e, rfl, rfl⟩

theorem system_step_of_emits {w : WebWorld} {event : WebEvent} {e : Event}
    (h : w.emits event = some e) : (w.step parser event).system = World.step parser w.system e := by
  rw [step, h]
  rfl

variable {parser}

/-- **The system under the handlers** makes the events of the history, and no others. -/
theorem system_after (w : WebWorld) (events : List WebEvent) :
    (w.after parser events).system = w.system.after parser (w.history parser events) := by
  induction events generalizing w with
  | nil => rfl
  | cons event events ih =>
      rw [after, Transition.run_cons, history, World.after, Transition.run_append]
      have hstep : (w.step parser event).system =
          Transition.run (World.step parser) w.system (w.emits event).toList := by
        rw [step]
        cases w.emits event <;> rfl
      rw [← hstep]
      exact ih (w.step parser event)

end WebWorld

/-! ### What an event does to a request -/

/-- The init data is signed by the user, and it was not stale when it was looked at. -/
def WebSettings.Signed (s : WebSettings) (initData : Str) (telegramUserId : ℤ) : Prop :=
  ∃ authDate maxAgeSeconds now, 60 ≤ maxAgeSeconds ∧ maxAgeSeconds ≤ 3600 ∧
    s.parseInitData initData = some ⟨some telegramUserId, some authDate⟩ ∧
      -seconds 30 ≤ now - authDate ∧ now - authDate ≤ seconds maxAgeSeconds

/-- The point a handler is at when its request has come in. -/
inductive Arrives (s : WebSettings) : RewardCall → RewardPhase → Prop
  | reading (sessionId : ℕ) (initData : Str) : Arrives s (.claim sessionId initData) .reading
  | confirming (secret : Str) (userid : ℤ) (h : s.adsgramCallbackSecret = some secret) :
      Arrives s (.callback secret userid) .confirming
  | answered (call : RewardCall) (response : RewardResponse)
      (h : response.isRefusal ∨ response = .serverError) : Arrives s call (.answered response)

/-- The moves of a request. -/
inductive RequestStep (w : WebWorld) (event : WebEvent) : RewardRequest → RewardRequest → Prop
  | idle (q : RewardRequest) : RequestStep w event q q
  | identified (q : RewardRequest) (sessionId : ℕ) (initData : Str) (telegramUserId : ℤ)
      (phase : RewardPhase) (hphase : q.phase = .reading)
        (hcall : q.call = .claim sessionId initData)
      (hsigned : w.settings.Signed initData telegramUserId)
      (hnext : phase = .marking ∨ ∃ retryAfter, phase = .answered (.tooManyRequests retryAfter)) :
      RequestStep w event q { q with user := some telegramUserId, phase }
  | unidentified (q : RewardRequest) (response : RewardResponse) (hphase : q.phase = .reading)
      (hresponse : response = .invalidIdentity ∨ response = .serverError) :
      RequestStep w event q { q with phase := .answered response }
  | transacted (q : RewardRequest) (clock : Clock) (render : CaptionRenderer)
      (hopen : q.dropped = false) (he : event = .transact q.id clock render) :
      RequestStep w event q (q.transact w.system clock render)
  | failed (q : RewardRequest) (hopen : q.isAnswered = false) (he : event = .databaseError q.id) :
      RequestStep w event q { q with phase := .answered .serverError }
  | dropped (q : RewardRequest) (hopen : q.isAnswered = false) (he : event = .crash) :
      RequestStep w event q { q with dropped := true }

/-- The requests after an event: those from before have moved, and there may be one that has come
in. -/
structure RequestsStep (w : WebWorld) (event : WebEvent)
    (requests : KeyedTable RewardRequest RewardRequest.id) : Prop where
  goes : ∀ q ∈ w.requests, ∃ q' ∈ requests, RequestStep w event q q'
  comes : ∀ q' ∈ requests, (∃ q ∈ w.requests, RequestStep w event q q') ∨
    ∃ call monotonic phase, event = .receive call monotonic ∧ Arrives w.settings call phase ∧
      q' = { id := w.requests.freshKey, call, phase }

/-- A move leaves a request its id and what it asks for. -/
theorem RequestStep.frame {w : WebWorld} {event : WebEvent} {q q' : RewardRequest}
    (h : RequestStep w event q q') : q'.id = q.id ∧ q'.call = q.call := by
  cases h with
  | transacted clock render hopen he =>
      obtain ⟨hid, hcall, -⟩ := (RewardRequest.transacts_transact q w.system clock render).frame
      exact ⟨hid, hcall⟩
  | _ => exact ⟨rfl, rfl⟩

namespace WebWorld

variable {w : WebWorld} {event : WebEvent}

theorem requestsStep_self : RequestsStep w event w.requests :=
  ⟨fun q hq => ⟨q, hq, .idle q⟩, fun q hq => .inl ⟨q, hq, .idle q⟩⟩

/-- Writing to one request, by a move. -/
theorem requestsStep_updateRequest {w₀ : WebWorld} (hw₀ : w₀.requests = w.requests) {requestId : ℕ}
    {f : RewardRequest → RewardRequest} {hf : ∀ request, (f request).id = request.id}
    (h : ∀ q ∈ w.requests, q.id = requestId → RequestStep w event q (f q)) :
    RequestsStep w event (w₀.updateRequest requestId f hf).requests := by
  unfold updateRequest
  dsimp only
  rw [hw₀]
  refine ⟨fun q hq => ?_, fun q' hq' => .inl ?_⟩
  · by_cases hid : q.id = requestId
    · exact ⟨f q, KeyedTable.mem_modifyAt.2 (.inr ⟨q, hq, hid, rfl⟩), h q hq hid⟩
    · exact ⟨q, KeyedTable.mem_modifyAt.2 (.inl ⟨hq, hid⟩), .idle q⟩
  · rcases KeyedTable.mem_modifyAt.1 hq' with ⟨hq', -⟩ | ⟨q, hq, hid, rfl⟩
    · exact ⟨q', hq', .idle q'⟩
    · exact ⟨q, hq, h q hq hid⟩

/-- A request comes in. -/
theorem requestsStep_addRequest {call : RewardCall} {monotonic : ℚ} {phase : RewardPhase}
    (h : Arrives w.settings call phase) :
    RequestsStep w (.receive call monotonic)
      (w.requests.insert { id := w.requests.freshKey, call, phase }) := by
  have hnew : w.requests.find? ({ id := w.requests.freshKey, call, phase } : RewardRequest).id =
      none :=
    KeyedTable.find?_freshKey w.requests
  refine ⟨fun q hq => ⟨q, (KeyedTable.mem_insert hnew).2 (.inr hq), .idle q⟩, fun q' hq' => ?_⟩
  rcases (KeyedTable.mem_insert hnew).1 hq' with rfl | hq'
  · exact .inr ⟨call, monotonic, phase, rfl, h, rfl⟩
  · exact .inl ⟨q', hq', .idle q'⟩

theorem requestsStep_receive (call : RewardCall) (monotonic : ℚ) :
    RequestsStep w (.receive call monotonic) (w.receive call monotonic).requests := by
  unfold receive
  cases call with
  | claim sessionId initData =>
      dsimp only
      split
      · exact requestsStep_addRequest (.answered _ _ (.inl rfl))
      · refine requestsStep_addRequest ?_
        split
        · exact .reading sessionId initData
        · exact .answered _ _ (.inl rfl)
  | callback secret userid =>
      dsimp only
      split
      · exact requestsStep_addRequest (.answered _ _ (.inl rfl))
      · next expected hexpected =>
          refine requestsStep_addRequest ?_
          split
          · exact .answered _ _ (.inr rfl)
          · exact .answered _ _ (.inl rfl)
          · next hequal =>
              unfold compareDigest at hequal
              split at hequal
              · have hequal : secret = expected := by simpa using hequal
                exact .confirming secret userid (hequal ▸ hexpected)
              · cases hequal

theorem requestsStep_identify (requestId : ℕ) (clock : Clock) (monotonic : ℚ) :
    RequestsStep w (.identify requestId clock monotonic)
      (w.identify requestId clock monotonic).requests := by
  unfold identify
  split
  · exact requestsStep_self
  · next request hfind =>
      obtain ⟨hmem, hid⟩ := KeyedTable.find?_eq_some.1 hfind
      have hsame : ∀ q ∈ w.requests, q.id = requestId → q = request := fun q hq hqid =>
        w.requests.ext_key hq hmem (hqid.trans hid.symm)
      split
      · next sessionId initData hopen hphase hcall =>
          split
          · refine requestsStep_updateRequest rfl fun q hq hqid => ?_
            rw [hsame q hq hqid]
            exact .unidentified request _ hphase (.inr rfl)
          · next value _ =>
              split
              · refine requestsStep_updateRequest rfl fun q hq hqid => ?_
                rw [hsame q hq hqid]
                exact .unidentified request _ hphase (.inr rfl)
              · refine requestsStep_updateRequest rfl fun q hq hqid => ?_
                rw [hsame q hq hqid]
                exact .unidentified request _ hphase (.inl rfl)
              · next telegramUserId hvalid =>
                  obtain ⟨authDate, hparsed, hfresh⟩ := validateMiniappUser_eq_ok hvalid
                  obtain ⟨hlow, hhigh⟩ := boundedInitDataMaxAge_bounds value
                  generalize w.settings.rewardClaim.check w.claims (.user telegramUserId)
                    monotonic = checked
                  obtain ⟨claims, decision⟩ := checked
                  refine requestsStep_updateRequest rfl fun q hq hqid => ?_
                  rw [hsame q hq hqid]
                  refine .identified request sessionId initData telegramUserId _ hphase hcall
                    ⟨authDate, _, clock.utcnow, hlow, hhigh, hparsed, hfresh⟩ ?_
                  split
                  · exact .inl rfl
                  · exact .inr ⟨_, rfl⟩
      · exact requestsStep_self

variable [UnicodeData] {parser : ArchiveParser}

/-- **The requests after an event.** -/
theorem requestsStep (w : WebWorld) (event : WebEvent) :
    RequestsStep w event (w.step parser event).requests := by
  cases event with
  | receive call monotonic => exact requestsStep_receive call monotonic
  | identify requestId clock monotonic => exact requestsStep_identify requestId clock monotonic
  | transact requestId clock render =>
      simp only [step, advance]
      refine requestsStep_updateRequest rfl fun q hq hid => ?_
      split
      · exact .idle q
      · next hopen => exact .transacted q clock render (by simpa using hopen) (by rw [hid])
  | databaseError requestId =>
      simp only [step, advance]
      refine requestsStep_updateRequest rfl fun q hq hid => ?_
      split
      · exact .idle q
      · next hopen =>
          simp only [Bool.or_eq_true, not_or, Bool.not_eq_true] at hopen
          exact .failed q hopen.2 (by rw [hid])
  | crash =>
      have hstep : ∀ q : RewardRequest, RequestStep w .crash q q.interrupt := by
        intro q
        unfold RewardRequest.interrupt
        split
        · exact .idle q
        · next hopen => exact .dropped q (by simpa using hopen) rfl
      have hmem : ∀ q', q' ∈ w.requests.modify RewardRequest.interrupt RewardRequest.id_interrupt ↔
          ∃ q ∈ w.requests, q.interrupt = q' := fun q' => KeyedTable.mem_modify
      refine ⟨fun q hq => ⟨q.interrupt, (hmem _).2 ⟨q, hq, rfl⟩, hstep q⟩, fun q' hq' => ?_⟩
      obtain ⟨q, hq, rfl⟩ := (hmem q').1 hq'
      exact .inl ⟨q, hq, hstep q⟩
  | copied requestId answer => exact requestsStep_self
  | changeMaxAge value => exact requestsStep_self
  | system event => exact requestsStep_self

variable (parser) in
/-- A handler that runs a transaction moves. -/
theorem mem_requests_transact {q : RewardRequest} (hq : q ∈ w.requests) (hopen : q.dropped = false)
    (clock : Clock) (render : CaptionRenderer) :
    q.transact w.system clock render ∈ (w.step parser (.transact q.id clock render)).requests := by
  simp only [step, advance, updateRequest]
  exact KeyedTable.mem_modifyAt.2 (.inr ⟨q, hq, rfl, by simp [hopen]⟩)

variable (parser) in
/-- The settings stay. -/
theorem settings_step (w : WebWorld) (event : WebEvent) :
    (w.step parser event).settings = w.settings := by
  cases event with
  | receive call monotonic =>
      cases call with
      | claim sessionId initData =>
          simp only [step, advance, receive]
          split <;> rfl
      | callback secret userid =>
          simp only [step, advance, receive]
          split <;> rfl
  | identify requestId clock monotonic =>
      simp only [step, advance, identify]
      split
      · rfl
      · split
        · split
          · rfl
          · split <;> rfl
        · rfl
  | _ => rfl

end WebWorld
end CineGate
