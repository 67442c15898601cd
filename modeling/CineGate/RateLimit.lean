/-
**The rate limiter.**

`services/rate_limit.py`.  The limiter keeps the times of the last allowed checks of each key, drops
what has left the window when it meets it, and forgets the keys that were checked longest ago when
it has too many. Time is exact.

* `SlidingWindowLimiter.check` — a check;
* `SlidingWindowLimiter.plainDecision` — the decision of the plain sliding window;
* `SlidingWindowLimiter.EvictsNoLive` — a check makes the limiter forget nothing that is still in
  the window;
* `bucketOf_check_eq`, `events_agree` — the bucket of a key and the plain window;
* `equals_sliding_window` — the limiter is the plain sliding window.
-/

import CineGate.OrderedDict
import CineGate.Transition
import Mathlib.Algebra.Order.Ring.Rat
import Mathlib.Data.List.TakeWhile
import Mathlib.Tactic.Linarith
import Mathlib.Tactic.Ring

set_option relaxedAutoImplicit false
set_option autoImplicit false

namespace CineGate

structure RateLimitDecision where
  allowed : Bool
  retryAfter : ℚ
deriving DecidableEq

/-- The settings of a limiter, as `__init__` accepts them. -/
structure SlidingWindowLimiter where
  limit : ℕ
  windowSeconds : ℚ
  maxKeys : ℕ
  limit_pos : 0 < limit
  windowSeconds_pos : 0 < windowSeconds
  maxKeys_pos : 0 < maxKeys

namespace SlidingWindowLimiter

variable {κ : Type*} [DecidableEq κ]

/-- `__init__`, or the text of its `ValueError`. -/
def init (limit : ℤ) (windowSeconds : ℚ) (maxKeys : ℤ) : Except String SlidingWindowLimiter :=
  if hlimit : limit ≤ 0 then .error "limit must be positive"
  else if hwindow : windowSeconds ≤ 0 then .error "window_seconds must be positive"
  else if hkeys : maxKeys ≤ 0 then .error "max_keys must be positive"
  else
    .ok {
      limit := limit.toNat
      windowSeconds
      maxKeys := maxKeys.toNat
      limit_pos := by omega
      windowSeconds_pos := lt_of_not_ge hwindow
      maxKeys_pos := by omega }

/-- Every limiter is accepted by `__init__`. -/
theorem init_self (limiter : SlidingWindowLimiter) :
    init limiter.limit limiter.windowSeconds limiter.maxKeys = .ok limiter := by
  have hlimit := limiter.limit_pos
  have hkeys := limiter.maxKeys_pos
  have hwindow := not_le_of_gt limiter.windowSeconds_pos
  unfold init
  rw [dif_neg (by omega), dif_neg hwindow, dif_neg (by omega)]
  rfl

/-- The loop `while bucket and bucket[0] <= cutoff: bucket.popleft()`. -/
def purge (cutoff : ℚ) (bucket : List ℚ) : List ℚ := bucket.dropWhile fun t => t ≤ cutoff

/-- A bucket from which nothing is left is removed. -/
def purge? (cutoff : ℚ) (bucket : List ℚ) : Option (List ℚ) :=
  match purge cutoff bucket with
  | [] => none
  | t :: rest => some (t :: rest)

/-- `_evict_if_needed`: the oldest keys whose events have expired are removed, and then the oldest
ones until there is room for a new key. -/
def evictIfNeeded (limiter : SlidingWindowLimiter) (events : OrderedDict κ (List ℚ)) (cutoff : ℚ) :
    OrderedDict κ (List ℚ) :=
  (events.sweep (purge? cutoff)).trim limiter.maxKeys

/-- The end of `check`, for the events of the key that are still in the window. -/
def decision (limiter : SlidingWindowLimiter) (bucket : List ℚ) (now : ℚ) : RateLimitDecision :=
  if limiter.limit ≤ bucket.length then
    { allowed := false
      retryAfter := max (1 / 1000) (limiter.windowSeconds - (now - bucket.headD now)) }
  else { allowed := true, retryAfter := 0 }

/-- `check`, at the time the clock shows. -/
def check (limiter : SlidingWindowLimiter) (events : OrderedDict κ (List ℚ)) (key : κ) (now : ℚ) :
    OrderedDict κ (List ℚ) × RateLimitDecision :=
  let cutoff := now - limiter.windowSeconds
  let (events, bucket) :=
    match events.get? key with
    | none => (limiter.evictIfNeeded events cutoff, [])
    | some bucket => (events, bucket)
  let bucket := purge cutoff bucket
  let decision := limiter.decision bucket now
  (events.putLast key (if decision.allowed then bucket ++ [now] else bucket), decision)

/-- `key_count`. -/
def keyCount (events : OrderedDict κ (List ℚ)) : ℕ := events.length

/-! ### The plain sliding window -/

/-- The times in the window that ends now. -/
def recent (limiter : SlidingWindowLimiter) (times : List ℚ) (now : ℚ) : List ℚ :=
  times.filter fun t => now - limiter.windowSeconds < t

/-- **The decision of the plain sliding window**, for the times at which a key was allowed: there is
room when fewer than `limit` of them lie in the window, else the oldest one of them has to leave it.
-/
def plainDecision (limiter : SlidingWindowLimiter) (times : List ℚ) (now : ℚ) :
    RateLimitDecision where
  allowed := (limiter.recent times now).length < limiter.limit
  retryAfter :=
    if (limiter.recent times now).length < limiter.limit then 0
    else max (1 / 1000) ((limiter.recent times now).headD now + limiter.windowSeconds - now)

/-- The times at which a key was allowed, for the times at which it was checked. -/
def plainTimes (limiter : SlidingWindowLimiter) (times : List ℚ) : List ℚ :=
  times.foldl (fun past now =>
    if (limiter.plainDecision past now).allowed then past ++ [now] else past) []

/-- The times at which a key was checked. -/
def timesOf (key : κ) (checks : List (κ × ℚ)) : List ℚ :=
  (checks.filter fun c => c.1 = key).map Prod.snd

/-! ### Runs -/

/-- The events after a check. -/
def step (limiter : SlidingWindowLimiter) (events : OrderedDict κ (List ℚ)) (c : κ × ℚ) :
    OrderedDict κ (List ℚ) := (limiter.check events c.1 c.2).1

/-- The events after a sequence of checks. -/
abbrev after (limiter : SlidingWindowLimiter) (checks : List (κ × ℚ)) : OrderedDict κ (List ℚ) :=
  Transition.run limiter.step .empty checks

/-- What the limiter decides about a check. -/
def decides (limiter : SlidingWindowLimiter) (checks : List (κ × ℚ)) (key : κ) (now : ℚ) :
    RateLimitDecision :=
  (limiter.check (limiter.after checks) key now).2

/-- **No key that still has unexpired events is evicted to make room.** -/
def EvictsNoLive (limiter : SlidingWindowLimiter) (events : OrderedDict κ (List ℚ)) (c : κ × ℚ) :
    Prop :=
  events.get? c.1 = none →
    ∀ e ∈ (events.sweep (purge? (c.2 - limiter.windowSeconds))).trimmed limiter.maxKeys,
      ∀ t ∈ e.2, t ≤ c.2 - limiter.windowSeconds

/-- The clock does not go back. -/
def Clocked (checks : List (κ × ℚ)) : Prop := (checks.map Prod.snd).Pairwise (· ≤ ·)

/-! ### One check -/

/-- The bucket of a key; a key without one has no events. -/
def bucketOf (events : OrderedDict κ (List ℚ)) (key : κ) : List ℚ := (events.get? key).getD []

variable {limiter : SlidingWindowLimiter} {events : OrderedDict κ (List ℚ)} {key other : κ}
  {now later cutoff : ℚ}

theorem purge_suffix (cutoff : ℚ) (bucket : List ℚ) : purge cutoff bucket <:+ bucket :=
  List.dropWhile_suffix _

theorem getD_purge? (cutoff : ℚ) (bucket : List ℚ) :
    (purge? cutoff bucket).getD [] = purge cutoff bucket := by
  unfold purge?
  split
  · next h => exact h.symm
  · next h => exact h.symm

/-- In a sorted bucket, what is left is in the window. -/
theorem purge_eq_filter {bucket : List ℚ} (hsorted : bucket.Pairwise (· ≤ ·)) :
    purge cutoff bucket = bucket.filter fun t => cutoff < t := by
  induction bucket with
  | nil => rfl
  | cons t rest ih =>
      obtain ⟨hle, hrest⟩ := List.pairwise_cons.1 hsorted
      by_cases ht : t ≤ cutoff
      · rw [List.filter_cons_of_neg (by simpa using ht), ← ih hrest, purge,
          List.dropWhile_cons_of_pos (by simpa using ht)]
        rfl
      · have hlt : ∀ u ∈ t :: rest, cutoff < u := by
          intro u hu
          rcases List.mem_cons.1 hu with rfl | hu
          · exact lt_of_not_ge ht
          · exact (lt_of_not_ge ht).trans_le (hle u hu)
        rw [purge, List.dropWhile_cons_of_neg (by simpa using ht), List.filter_eq_self.2]
        intro u hu
        simpa using hlt u hu

/-- **The buckets of other keys** lose nothing but expired events, or are evicted. -/
theorem bucketOf_evictIfNeeded_suffix (key : κ) :
    bucketOf (limiter.evictIfNeeded events cutoff) key <:+ bucketOf events key := by
  have hsweep : bucketOf (events.sweep (purge? cutoff)) key <:+ bucketOf events key := by
    unfold bucketOf
    rcases events.get?_sweep (purge? cutoff) key with h | ⟨bucket, hbucket, h⟩
    · rw [h]
    · rw [h, hbucket, getD_purge?]
      exact purge_suffix cutoff bucket
  refine List.IsSuffix.trans ?_ hsweep
  unfold bucketOf evictIfNeeded
  rcases (events.sweep (purge? cutoff)).get?_trim limiter.maxKeys key with h | ⟨h, -⟩
  · rw [h]
  · rw [h]
    exact List.nil_suffix

theorem bucketOf_check_of_ne (h : other ≠ key) :
    bucketOf (limiter.check events key now).1 other <:+ bucketOf events other := by
  unfold check
  cases hkey : events.get? key with
  | none =>
      dsimp only
      rw [bucketOf, OrderedDict.get?_putLast_of_ne h]
      exact bucketOf_evictIfNeeded_suffix other
  | some bucket =>
      dsimp only
      rw [bucketOf, OrderedDict.get?_putLast_of_ne h]
      exact List.suffix_refl _

/-- What a check decides, from the bucket of its key. -/
theorem decision_check :
    (limiter.check events key now).2 =
      limiter.decision (purge (now - limiter.windowSeconds) (bucketOf events key)) now := by
  unfold check bucketOf
  cases events.get? key <;> rfl

/-- **The bucket of the checked key** loses its expired events and records the check if it is
allowed. -/
theorem bucketOf_check_self :
    bucketOf (limiter.check events key now).1 key =
      if (limiter.check events key now).2.allowed then
        purge (now - limiter.windowSeconds) (bucketOf events key) ++ [now]
      else purge (now - limiter.windowSeconds) (bucketOf events key) := by
  rw [decision_check]
  unfold check bucketOf
  cases events.get? key <;> simp

theorem allowed_decision {bucket : List ℚ} :
    (limiter.decision bucket now).allowed = true ↔ bucket.length < limiter.limit := by
  unfold decision
  split
  · next h => simpa using h
  · next h => simpa using h

theorem denied_decision {bucket : List ℚ} :
    (limiter.decision bucket now).allowed = false ↔ limiter.limit ≤ bucket.length := by
  rw [← Bool.not_eq_true, allowed_decision, not_lt]

/-! ### Bounds -/

/-- The limiter has at most `maxKeys` keys, and at most `limit` times for each. -/
structure Bounded (limiter : SlidingWindowLimiter) (events : OrderedDict κ (List ℚ)) : Prop where
  keys : events.length ≤ limiter.maxKeys
  buckets : ∀ key, (bucketOf events key).length ≤ limiter.limit

theorem get?_evictIfNeeded_of_none (h : events.get? key = none) :
    (limiter.evictIfNeeded events cutoff).get? key = none := by
  have hsweep : (events.sweep (purge? cutoff)).get? key = none := by
    rcases events.get?_sweep (purge? cutoff) key with hsame | ⟨bucket, hbucket, -⟩
    · rw [hsame, h]
    · rw [h] at hbucket
      cases hbucket
  unfold evictIfNeeded
  rcases (events.sweep (purge? cutoff)).get?_trim limiter.maxKeys key with hsame | ⟨hnone, -⟩
  · rw [hsame, hsweep]
  · exact hnone

theorem Bounded.check (h : limiter.Bounded events) (key : κ) (now : ℚ) :
    limiter.Bounded (limiter.check events key now).1 := by
  constructor
  · unfold SlidingWindowLimiter.check
    cases hkey : events.get? key with
    | none =>
        dsimp only
        rw [OrderedDict.length_putLast_of_none (get?_evictIfNeeded_of_none hkey)]
        exact OrderedDict.length_trim_lt limiter.maxKeys_pos _
    | some bucket => exact (OrderedDict.length_putLast_of_some hkey).trans h.keys
  · intro other
    by_cases hother : other = key
    · subst hother
      have hlength := (purge_suffix (now - limiter.windowSeconds) (bucketOf events other)).length_le
      have hlimit := h.buckets other
      rw [bucketOf_check_self, decision_check]
      split
      · next hallowed =>
          have hroom := allowed_decision.1 hallowed
          rw [List.length_append, List.length_singleton]
          omega
      · omega
    · exact (bucketOf_check_of_ne hother).length_le.trans (h.buckets other)

theorem bounded_after (limiter : SlidingWindowLimiter) (checks : List (κ × ℚ)) :
    limiter.Bounded (limiter.after checks) :=
  Transition.run_invariant (fun _ c h => h.check c.1 c.2) ⟨Nat.zero_le _, fun _ => Nat.zero_le _⟩
    checks

/-! ### The order of the times -/

/-- Times in order, up to now. -/
def Ordered (times : List ℚ) (now : ℚ) : Prop := times.Pairwise (· ≤ ·) ∧ ∀ t ∈ times, t ≤ now

theorem Ordered.mono {times : List ℚ} (h : Ordered times now) (hle : now ≤ later) :
    Ordered times later :=
  ⟨h.1, fun t ht => (h.2 t ht).trans hle⟩

theorem Ordered.sublist {times times' : List ℚ} (h : Ordered times now)
    (hsub : times'.Sublist times) :
    Ordered times' now := ⟨h.1.sublist hsub, fun t ht => h.2 t (hsub.subset ht)⟩

theorem Ordered.snoc {times : List ℚ} (h : Ordered times now) : Ordered (times ++ [now]) now := by
  constructor
  · rw [List.pairwise_append]
    exact ⟨h.1, List.pairwise_singleton _ _, fun t ht u hu => List.mem_singleton.1 hu ▸ h.2 t ht⟩
  · intro t ht
    rcases List.mem_append.1 ht with ht | ht
    · exact h.2 t ht
    · exact (List.mem_singleton.1 ht).le

omit [DecidableEq κ] in
/-- A check at the end of a sequence: the clock has not gone back before it. -/
theorem clocked_snoc {checks : List (κ × ℚ)} {c : κ × ℚ} :
    Clocked (checks ++ [c]) ↔ Clocked checks ∧ ∀ c' ∈ checks, c'.2 ≤ c.2 := by
  unfold Clocked
  rw [List.map_append, List.pairwise_append]
  constructor
  · rintro ⟨h, -, hle⟩
    exact ⟨h, fun c' hc' => hle c'.2 (List.mem_map_of_mem hc') c.2 List.mem_cons_self⟩
  · rintro ⟨h, hle⟩
    refine ⟨h, List.pairwise_singleton _ _, fun t ht u hu => ?_⟩
    obtain ⟨c', hc', rfl⟩ := List.mem_map.1 ht
    rw [List.mem_singleton.1 hu]
    exact hle c' hc'

theorem ordered_after {checks : List (κ × ℚ)} (hclock : Clocked checks)
    (hnow : ∀ c ∈ checks, c.2 ≤ now)
    (key : κ) : Ordered (bucketOf (limiter.after checks) key) now := by
  induction checks using List.reverseRecOn generalizing now key with
  | nil => exact ⟨List.Pairwise.nil, fun t ht => (by cases ht)⟩
  | append_singleton checks c ih =>
      obtain ⟨hbefore, hle⟩ := clocked_snoc.1 hclock
      have hc : c.2 ≤ now := hnow c (List.mem_append_right _ List.mem_cons_self)
      refine Ordered.mono ?_ hc
      unfold after
      rw [Transition.run_snoc, step]
      by_cases hkey : key = c.1
      · subst hkey
        have hpurge := (ih hbefore hle c.1).sublist
          (purge_suffix (c.2 - limiter.windowSeconds) (bucketOf (limiter.after checks) c.1)).sublist
        rw [bucketOf_check_self]
        split
        · exact hpurge.snoc
        · exact hpurge
      · exact (ih hbefore hle key).sublist (bucketOf_check_of_ne hkey).sublist

/-! ### The plain window -/

theorem recent_append (times times' : List ℚ) :
    limiter.recent (times ++ times') now = limiter.recent times now ++ limiter.recent times' now :=
  List.filter_append _ _

/-- What is in a window later on has been in it before. -/
theorem recent_recent (hle : now ≤ later) (times : List ℚ) :
    limiter.recent (limiter.recent times now) later = limiter.recent times later := by
  unfold recent
  rw [List.filter_filter]
  refine List.filter_congr fun t _ => ?_
  have himp : later - limiter.windowSeconds < t → now - limiter.windowSeconds < t :=
    fun h => by linarith
  by_cases h : later - limiter.windowSeconds < t <;> simp [h, himp]

/-- Lazy expiry is not seen in the window. -/
theorem recent_purge (bucket : List ℚ) :
    limiter.recent (purge (now - limiter.windowSeconds) bucket) now =
      limiter.recent bucket now := by
  have hdropped : limiter.recent (bucket.takeWhile fun t => t ≤ now - limiter.windowSeconds) now =
      [] := by
    unfold recent
    rw [List.filter_eq_nil_iff]
    intro t ht
    have hle : t ≤ now - limiter.windowSeconds := by simpa using List.mem_takeWhile_imp ht
    simpa using hle
  conv_rhs => rw [← List.takeWhile_append_dropWhile
    (p := fun t => decide (t ≤ now - limiter.windowSeconds)) (l := bucket),
    recent_append, hdropped]
  rfl

theorem purge_eq_recent {bucket : List ℚ} (h : Ordered bucket now) :
    purge (now - limiter.windowSeconds) bucket = limiter.recent bucket now := purge_eq_filter h.1

/-- Eviction is not seen in the window either, when it evicts nothing that is live. -/
theorem recent_evictIfNeeded (hnone : events.get? key = none)
    (hlive : limiter.EvictsNoLive events (key, now)) (other : κ) :
    limiter.recent (bucketOf (limiter.evictIfNeeded events (now - limiter.windowSeconds)) other)
        now =
      limiter.recent (bucketOf events other) now := by
  have hsweep :
      limiter.recent (bucketOf (events.sweep (purge? (now - limiter.windowSeconds))) other) now =
        limiter.recent (bucketOf events other) now := by
    unfold bucketOf
    rcases events.get?_sweep (purge? (now - limiter.windowSeconds)) other with
      h | ⟨bucket, hbucket, h⟩
    · rw [h]
    · rw [h, hbucket, getD_purge?]
      exact recent_purge bucket
  rw [← hsweep]
  unfold bucketOf evictIfNeeded
  rcases (events.sweep (purge? (now - limiter.windowSeconds))).get?_trim limiter.maxKeys other with
    h | ⟨h, bucket, hbucket, hmem⟩
  · rw [h]
  · rw [h, hbucket]
    refine (List.filter_eq_nil_iff.2 fun t ht => ?_).symm
    have hle := hlive hnone _ hmem t ht
    simpa using hle

theorem recent_check_of_ne (hlive : limiter.EvictsNoLive events (key, now)) (h : other ≠ key) :
    limiter.recent (bucketOf (limiter.check events key now).1 other) now =
      limiter.recent (bucketOf events other) now := by
  unfold check
  cases hkey : events.get? key with
  | none =>
      dsimp only
      rw [bucketOf, OrderedDict.get?_putLast_of_ne h]
      exact recent_evictIfNeeded hkey hlive other
  | some bucket =>
      dsimp only
      rw [bucketOf, OrderedDict.get?_putLast_of_ne h]
      rfl

/-- The decision about the times in the window. -/
theorem decision_recent (times : List ℚ) :
    limiter.decision (limiter.recent times now) now = limiter.plainDecision times now := by
  unfold decision plainDecision
  by_cases h : limiter.limit ≤ (limiter.recent times now).length
  · rw [if_pos h, if_neg (not_lt.2 h), decide_eq_false (not_lt.2 h)]
    congr 2
    ring
  · rw [if_neg h, if_pos (not_le.1 h), decide_eq_true (not_le.1 h)]

theorem plainTimes_snoc (times : List ℚ) :
    limiter.plainTimes (times ++ [now]) =
      if (limiter.plainDecision (limiter.plainTimes times) now).allowed then
        limiter.plainTimes times ++ [now]
      else limiter.plainTimes times := by
  unfold plainTimes
  rw [List.foldl_append]
  rfl

theorem plainTimes_sublist (times : List ℚ) : (limiter.plainTimes times).Sublist times := by
  induction times using List.reverseRecOn with
  | nil => exact List.Sublist.refl _
  | append_singleton times now ih =>
      rw [plainTimes_snoc]
      split
      · exact ih.append (List.Sublist.refl _)
      · exact ih.trans (List.sublist_append_left _ _)

theorem timesOf_append (checks checks' : List (κ × ℚ)) :
    timesOf key (checks ++ checks') = timesOf key checks ++ timesOf key checks' := by
  simp [timesOf]

theorem timesOf_of_ne {checks : List (κ × ℚ)} (h : ∀ c ∈ checks, c.1 ≠ key) :
    timesOf key checks = [] := by
  unfold timesOf
  rw [List.map_eq_nil_iff, List.filter_eq_nil_iff]
  intro c hc
  simpa using h c hc

/-- **The bucket of a key and its plain window** hold the same times of every window that ends after
the last check. -/
theorem events_agree {checks : List (κ × ℚ)} (hclock : Clocked checks)
    (hlive : Transition.Along limiter.step limiter.EvictsNoLive .empty checks)
    (hnow : ∀ c ∈ checks, c.2 ≤ now) (key : κ) :
    limiter.recent (bucketOf (limiter.after checks) key) now =
      limiter.recent (limiter.plainTimes (timesOf key checks)) now := by
  induction checks using List.reverseRecOn generalizing now key with
  | nil => rfl
  | append_singleton checks c ih =>
      obtain ⟨hbefore, hle⟩ := clocked_snoc.1 hclock
      obtain ⟨hlive, hlast⟩ := Transition.along_snoc.1 hlive
      have hc : c.2 ≤ now := hnow c (List.mem_append_right _ List.mem_cons_self)
      unfold after
      rw [Transition.run_snoc, step, timesOf_append]
      by_cases hkey : key = c.1
      · subst hkey
        have hpurge : purge (c.2 - limiter.windowSeconds) (bucketOf (limiter.after checks) c.1) =
            limiter.recent (limiter.plainTimes (timesOf c.1 checks)) c.2 := by
          rw [purge_eq_recent (ordered_after hbefore hle c.1), ih hbefore hlive hle]
        have htimes : timesOf c.1 [c] = [c.2] := by simp [timesOf]
        rw [htimes, plainTimes_snoc, bucketOf_check_self, decision_check, hpurge, decision_recent]
        split
        · rw [recent_append, recent_append, recent_recent hc]
        · exact recent_recent hc _
      · have hnot : timesOf key [c] = [] := timesOf_of_ne fun c' hc' => by
          rw [List.mem_singleton.1 hc']
          exact Ne.symm hkey
        rw [hnot, List.append_nil, ← recent_recent hc (bucketOf _ key),
          recent_check_of_ne hlast hkey, ih hbefore hlive hle, recent_recent hc]

/-- **The limiter decides as the plain window does.** -/
theorem decides_eq {checks : List (κ × ℚ)} (hclock : Clocked (checks ++ [(key, now)]))
    (hlive : Transition.Along limiter.step limiter.EvictsNoLive .empty checks) :
    limiter.decides checks key now =
      limiter.plainDecision (limiter.plainTimes (timesOf key checks)) now := by
  obtain ⟨hbefore, hle⟩ := clocked_snoc.1 hclock
  rw [decides, decision_check, purge_eq_recent (ordered_after hbefore hle key),
    events_agree hbefore hlive hle,
    decision_recent]

/-! ### Retrying -/

/-- The checks of other keys leave a key nothing that it did not have. -/
theorem bucketOf_run_suffix {between : List (κ × ℚ)} (hother : ∀ c ∈ between, c.1 ≠ key) :
    bucketOf (Transition.run limiter.step events between) key <:+ bucketOf events key := by
  induction between generalizing events with
  | nil => exact List.suffix_refl _
  | cons c between ih =>
      have hc : key ≠ c.1 := (hother c List.mem_cons_self).symm
      rw [Transition.run_cons]
      exact (ih fun c' hc' => hother c' (List.mem_cons_of_mem _ hc')).trans
        (bucketOf_check_of_ne hc)

/-- **A check after the delay is allowed**, whatever happens to the other keys meanwhile. -/
theorem allowed_after_delay {checks between : List (κ × ℚ)} (hother : ∀ c ∈ between, c.1 ≠ key)
    (hdenied : (limiter.decides checks key now).allowed = false)
    (hdelay : now + (limiter.decides checks key now).retryAfter ≤ later) :
    (limiter.decides (checks ++ (key, now) :: between) key later).allowed = true := by
  unfold decides at hdenied hdelay
  have hbucket : bucketOf (limiter.check (limiter.after checks) key now).1 key = _ :=
    bucketOf_check_self
  rw [hdenied, if_neg Bool.false_ne_true] at hbucket
  rw [decision_check] at hdenied hdelay
  have hbound := (bounded_after limiter checks).check key now
  have hlimit := hbound.buckets key
  have hsuffix : bucketOf
      (Transition.run limiter.step (limiter.check (limiter.after checks) key now).1 between) key <:+
        bucketOf (limiter.check (limiter.after checks) key now).1 key := bucketOf_run_suffix hother
  rw [hbucket] at hlimit hsuffix
  have hfull := denied_decision.1 hdenied
  rw [decides, after, Transition.run_append, Transition.run_cons, decision_check, allowed_decision]
  change (purge _ (bucketOf
    (Transition.run limiter.step (limiter.check (limiter.after checks) key now).1 between)
    key)).length < _
  generalize bucketOf (Transition.run limiter.step (limiter.check (limiter.after checks) key now).1
    between) key =
    bucket at hsuffix ⊢
  have hpurge := (purge_suffix (later - limiter.windowSeconds) bucket).length_le
  by_cases hlength : bucket.length =
    (purge (now - limiter.windowSeconds) (bucketOf (limiter.after checks) key)).length
  · -- the bucket is what it was, and its oldest time has left the window
    rw [← hsuffix.eq_of_length hlength] at hfull hlimit hdelay
    cases bucket with
    | nil => exact absurd (Nat.lt_of_lt_of_le limiter.limit_pos hfull) (lt_irrefl 0)
    | cons t rest =>
        have hretry := le_max_right (1 / 1000) (limiter.windowSeconds - (now - t))
        rw [decision, if_pos hfull] at hdelay
        simp only [List.headD_cons] at hdelay
        have ht : t ≤ later - limiter.windowSeconds := by linarith
        have hrest : purge (later - limiter.windowSeconds) (t :: rest) =
            purge (later - limiter.windowSeconds) rest :=
          List.dropWhile_cons_of_pos (by simpa using ht)
        have hle := (purge_suffix (later - limiter.windowSeconds) rest).length_le
        rw [List.length_cons] at hlimit
        rw [hrest]
        omega
  · have hle := hsuffix.length_le
    omega

/-- The plain window denies until its oldest time leaves it. -/
theorem plain_denied_before_delay {times : List ℚ} (hordered : times.Pairwise (· ≤ ·))
    (hle : now ≤ later)
    (hdenied : (limiter.plainDecision times now).allowed = false)
    (hretry : 1 / 1000 < (limiter.plainDecision times now).retryAfter)
    (hdelay : later < now + (limiter.plainDecision times now).retryAfter) :
    (limiter.plainDecision times later).allowed = false := by
  simp only [plainDecision, decide_eq_false_iff_not, not_lt] at hdenied hretry hdelay ⊢
  rw [if_neg (not_lt.2 hdenied)] at hretry hdelay
  rw [max_eq_right ((lt_max_iff.1 hretry).resolve_left (lt_irrefl _)).le] at hdelay
  have hsorted : (limiter.recent times now).Pairwise (· ≤ ·) := hordered.sublist List.filter_sublist
  rw [← recent_recent hle times]
  have hall : limiter.recent (limiter.recent times now) later = limiter.recent times now := by
    refine List.filter_eq_self.2 fun t ht => ?_
    cases hrecent : limiter.recent times now with
    | nil =>
        rw [hrecent] at ht
        cases ht
    | cons oldest rest =>
        rw [hrecent] at ht hsorted hdelay
        rw [List.headD_cons] at hdelay
        have holdest : oldest ≤ t := by
          rcases List.mem_cons.1 ht with rfl | ht
          · exact le_refl _
          · exact (List.pairwise_cons.1 hsorted).1 t ht
        have hlive : later - limiter.windowSeconds < t := by linarith
        simpa using hlive
  rw [hall]
  exact hdenied

/-- **The limiter is the plain sliding window.** It never has more than `maxKeys` keys, nor more
than `limit` times of one.  When the clock does not go back and nothing live has been evicted, each
decision is that of the plain window for the checks of the same key.  A denied key is allowed again
from `retry_after` on, and not before, down to a millisecond. -/
theorem equals_sliding_window (limiter : SlidingWindowLimiter) (checks : List (κ × ℚ)) (key : κ)
    (now : ℚ) :
    keyCount (limiter.after checks) ≤ limiter.maxKeys ∧
      (∀ other bucket, (limiter.after checks).get? other = some bucket →
        bucket.length ≤ limiter.limit) ∧
      (Clocked (checks ++ [(key, now)]) →
        Transition.Along limiter.step limiter.EvictsNoLive .empty checks →
        limiter.decides checks key now =
          limiter.plainDecision (limiter.plainTimes (timesOf key checks)) now) ∧
      ((limiter.decides checks key now).allowed = false →
        ∀ between later, (∀ c ∈ between, c.1 ≠ key) →
        (now + (limiter.decides checks key now).retryAfter ≤ later →
          (limiter.decides (checks ++ (key, now) :: between) key later).allowed = true) ∧
        (Clocked (checks ++ (key, now) :: between ++ [(key, later)]) →
          Transition.Along limiter.step limiter.EvictsNoLive .empty
            (checks ++ (key, now) :: between) →
          1 / 1000 < (limiter.decides checks key now).retryAfter →
          later < now + (limiter.decides checks key now).retryAfter →
          (limiter.decides (checks ++ (key, now) :: between) key later).allowed = false)) := by
  have hbounded := bounded_after limiter checks
  refine ⟨hbounded.keys, fun other bucket hbucket => ?_, decides_eq, ?_⟩
  · have hlimit := hbounded.buckets other
    rw [bucketOf, hbucket] at hlimit
    exact hlimit
  · intro hdenied between later hother
    refine ⟨allowed_after_delay hother hdenied, fun hclock hlive hretry hdelay => ?_⟩
    obtain ⟨hbefore, hle⟩ := clocked_snoc.1 hclock
    have hfirst : Clocked (checks ++ [(key, now)]) := by
      refine List.Pairwise.sublist ?_ hbefore
      exact List.Sublist.map _ (((List.nil_sublist between).cons_cons _).append_left _)
    have hnow : now ≤ later := hle (key, now) (List.mem_append_right _ List.mem_cons_self)
    rw [decides_eq hfirst (hlive.of_prefix (List.prefix_append _ _))] at hdenied hretry hdelay
    rw [decides_eq hclock hlive]
    -- a denied request leaves no time behind, and neither do those of the other keys
    have htimes : limiter.plainTimes (timesOf key (checks ++ (key, now) :: between)) =
        limiter.plainTimes (timesOf key checks) := by
      have hcons : timesOf key ((key, now) :: between) = [now] := by
        rw [← List.singleton_append, timesOf_append, timesOf_of_ne hother]
        simp [timesOf]
      rw [timesOf_append, hcons, plainTimes_snoc, hdenied, if_neg Bool.false_ne_true]
    rw [htimes]
    refine plain_denied_before_delay ?_ hnow hdenied hretry hdelay
    have hsublist : (timesOf key checks).Sublist ((checks ++ [(key, now)]).map Prod.snd) :=
      List.Sublist.map _ (List.filter_sublist.trans (List.sublist_append_left _ _))
    exact hfirst.sublist ((plainTimes_sublist _).trans hsublist)

/-- Two checks in ten seconds: the third one has to wait for the first one to leave the window. -/
example :
    let limiter : SlidingWindowLimiter := ⟨2, 10, 10, by decide, by decide, by decide⟩
    limiter.decides [(5, 0), (5, 1)] 5 1 = ⟨false, 9⟩ ∧
      limiter.decides [(5, 0), (5, 1), (5, 1)] 5 (51 / 5) = ⟨true, 0⟩ := by
  decide +kernel

end SlidingWindowLimiter
end CineGate
