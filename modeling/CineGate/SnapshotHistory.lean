/-
**The history of one snapshot.**

A call either leaves the snapshot of a message as it is or advances its version by one, whether the
message is recorded, written over, or put in conflict.  A history read that was given a version can
therefore only write while nothing at all has happened to the snapshot.  And live events of one post
commute: the snapshot holds the newest event that was committed, in whatever order they came.

* `ArchiveTables.CallStep.snapshot?` — what a call does to a snapshot;
* `ArchiveTables.stale_history_writes_nothing` — versions fence history reads;
* `Post`, `ArchiveTables.delivered` — the events of a post, and those that a run commits;
* `ArchiveTables.newest_event_is_recorded` — the snapshot of a post after live deliveries.
-/

import CineGate.RowIdentity
import Mathlib.Data.Set.Defs
import Mathlib.Order.WithBot

set_option relaxedAutoImplicit false
set_option autoImplicit false

namespace CineGate

namespace ArchiveTables

variable {t t' : ArchiveTables} {channelId : ℤ} {messageId : ℕ} {s : ArchiveMessageSnapshot}
  {c : ArchiveCall}

section

variable [UnicodeData] {parser : ArchiveParser} {message : ArchiveMessage}

/-! ### The snapshot after a call -/

theorem snapshots_reconcileBoundary :
    (t.reconcileBoundary parser channelId messageId).snapshots = t.snapshots := by
  unfold ArchiveTables.reconcileBoundary
  split <;> rfl

theorem snapshots_invalidateSnapshotConflict :
    (t.invalidateSnapshotConflict parser channelId messageId).snapshots = t.snapshots := by
  unfold ArchiveTables.invalidateSnapshotConflict
  split
  · rfl
  · split
    · rfl
    · exact snapshots_reconcileBoundary

/-- Indexing writes no snapshot. -/
theorem IndexStep.snapshots_eq (h : IndexStep parser t channelId message t') :
    t'.snapshots = t.snapshots := by
  cases h with
  | posterInvalid movie hposter => rfl
  | posterValid movie group hposter hgroup => rfl
  | qualityInvalid row movie f hf hposter hrow hmovie => rfl
  | qualityValid row movie parsed hposter hrow hmovie hparsed hfree => rfl
  | boundary hposter hrow => exact snapshots_reconcileBoundary
  | newPoster group hposter hrow hgroup =>
      rw [← posterMessageId_of_parsePoster hgroup] at hposter
      rw [upsertPoster_eq hposter]
      split
      · exact qualities_addPoster.2
      · exact qualities_addPoster.2
  | candidateIgnored hposter hrow hkind hquality hignored => rfl
  | candidateAccepted movie parsed hposter hrow hmovie hparsed => exact snapshots_upsertQualityRow

/-- **What a call does to a snapshot**: nothing, a conflict, or the message is recorded. -/
theorem CallStep.snapshot? (h : CallStep parser t c t') :
    t'.snapshot? channelId messageId = t.snapshot? channelId messageId ∨
      (c.channelId = channelId ∧ c.message.messageId = messageId) ∧
        ((c.fate t = .conflicted ∧ ∃ s, t.snapshot? channelId messageId = some s ∧
            t'.snapshot? channelId messageId =
              some { s with version := s.version + 1, conflicted := true }) ∨
          c.fate t = .recorded ∧
            t'.snapshot? channelId messageId =
              some (t.recordedSnapshot c.channelId c.message)) := by
  cases h with
  | unchanged h => exact .inl rfl
  | conflicted s hs hfate hkeys =>
      rw [ArchiveTables.snapshot?, snapshots_invalidateSnapshotConflict]
      have hmarked :
          (t.markConflict c.channelId c.message.messageId).snapshot? channelId messageId =
            if toLex (channelId, messageId) = toLex (c.channelId, c.message.messageId) then
              (t.snapshot? c.channelId c.message.messageId).map fun s =>
                { s with version := s.version + 1, conflicted := true }
            else t.snapshot? channelId messageId := snapshot?_updateSnapshot
      by_cases hkey : toLex (channelId, messageId) = toLex (c.channelId, c.message.messageId)
      · obtain ⟨hchannel, hid⟩ := Prod.ext_iff.1 (toLex.injective hkey)
        dsimp only at hchannel hid
        rw [if_pos hkey, hs, Option.map_some] at hmarked
        rw [hchannel, hid] at hmarked ⊢
        exact .inr ⟨⟨rfl, rfl⟩, .inl ⟨hfate, s, hs, hmarked⟩⟩
      · rw [if_neg hkey] at hmarked
        exact .inl hmarked
  | indexed _ hid hfate h hkeys =>
      rw [ArchiveTables.snapshot?, h.snapshots_eq]
      have hrecorded : (t.recordMessage c.channelId c.message).snapshot? channelId messageId = _ :=
        snapshot?_recordMessage
      by_cases hkey : toLex (channelId, messageId) = toLex (c.channelId, c.message.messageId)
      · rw [if_pos hkey] at hrecorded
        obtain ⟨hchannel, hid⟩ := Prod.ext_iff.1 (toLex.injective hkey)
        exact .inr ⟨⟨hchannel.symm, hid.symm⟩, .inr ⟨hfate, hrecorded⟩⟩
      · rw [if_neg hkey] at hrecorded
        exact .inl hrecorded

/-- A call that keeps the snapshot of its message changes nothing. -/
theorem Linked.call_eq_self (ht : t.Linked) (hfate : c.fate t = .kept) : t.call parser c = t := by
  have hstep : CallStep parser t c (t.call parser c) := ht.callStep c
  generalize t.call parser c = t' at hstep
  cases hstep with
  | unchanged _ => rfl
  | conflicted _ _ hconflict _ =>
      rw [hfate] at hconflict
      cases hconflict
  | indexed _ _ hrecorded _ _ =>
      rw [hfate] at hrecorded
      cases hrecorded

/-! ### Versions -/

/-- **The version counts the changes of a snapshot.** -/
theorem CallStep.snapshotVersion (h : CallStep parser t c t') :
    t'.snapshot? channelId messageId = t.snapshot? channelId messageId ∨
      t'.snapshotVersion channelId messageId = t.snapshotVersion channelId messageId + 1 := by
  have hcases : t'.snapshot? channelId messageId = t.snapshot? channelId messageId ∨ _ :=
    h.snapshot?
  rcases hcases with hsame | ⟨⟨rfl, rfl⟩, ⟨-, s, hs, hs'⟩ | ⟨-, hs'⟩⟩
  · exact .inl hsame
  · right
    rw [ArchiveTables.snapshotVersion, ArchiveTables.snapshotVersion, hs, hs']
    rfl
  · right
    rw [ArchiveTables.snapshotVersion, hs']
    rfl

/-- Version 0 stands for a snapshot that is not there. -/
def Versioned (t : ArchiveTables) : Prop := ∀ channelId messageId,
  t.snapshotVersion channelId messageId = 0 ↔ t.snapshot? channelId messageId = none

theorem Versioned.call (h : t.Versioned) (ht : t.Linked) (c : ArchiveCall) :
    (t.call parser c).Versioned := by
  intro channelId messageId
  have hstep : CallStep parser t c (t.call parser c) := ht.callStep c
  generalize t.call parser c = t' at hstep
  constructor
  · intro hzero
    have hcases : t'.snapshot? channelId messageId = t.snapshot? channelId messageId ∨ _ :=
      hstep.snapshotVersion
    rcases hcases with hsame | hnext
    · rw [hsame]
      refine (h channelId messageId).1 ?_
      rw [ArchiveTables.snapshotVersion, ← hsame]
      exact hzero
    · omega
  · intro hnone
    rw [ArchiveTables.snapshotVersion, hnone]
    rfl

theorem run_versioned (calls : List ArchiveCall) :
    (Transition.run (call parser) empty calls).Versioned := by
  induction calls using List.reverseRecOn with
  | nil => exact fun channelId messageId => ⟨fun _ => rfl, fun _ => rfl⟩
  | append_singleton calls c ih =>
      rw [Transition.run_snoc]
      exact ih.call (run_sound calls).toLinked c

/-- **No history repeats a version**: the version has grown unless nothing has happened. -/
theorem Sound.snapshotVersion_run (ht : t.Sound) (calls : List ArchiveCall) :
    Transition.Always (ArchiveTables.call parser)
        (fun u => u.snapshot? channelId messageId = t.snapshot? channelId messageId) t calls ∨
      t.snapshotVersion channelId messageId <
        (Transition.run (ArchiveTables.call parser) t calls).snapshotVersion channelId
          messageId := by
  induction calls using List.reverseRecOn with
  | nil => exact .inl (Transition.always_nil.2 rfl)
  | append_singleton calls c ih =>
      have hrun : (Transition.run (ArchiveTables.call parser) t calls).Sound :=
        Transition.run_invariant (fun _ c ht => ht.call c) ht calls
      have hstep :
          CallStep parser _ c
            ((Transition.run (ArchiveTables.call parser) t calls).call parser c) :=
        hrun.toLinked.callStep c
      rw [Transition.run_snoc, Transition.always_snoc]
      have hcases : ((Transition.run (ArchiveTables.call parser) t calls).call parser c).snapshot?
          channelId messageId = _ ∨ _ := hstep.snapshotVersion
      rcases hcases with hsame | hnext
      · rcases ih with halways | hlt
        · exact .inl ⟨halways, hsame.trans halways.last⟩
        · right
          rw [ArchiveTables.snapshotVersion, ArchiveTables.snapshotVersion, hsame]
          exact hlt
      · right
        rcases ih with halways | hlt
        · have hlast := halways.last
          rw [hnext, ArchiveTables.snapshotVersion, ArchiveTables.snapshotVersion, hlast]
          omega
        · omega

omit [UnicodeData] in
/-- A token that is not the version of the snapshot keeps everything. -/
theorem fate_of_stale {configured : Option SettingValue} {token : ℕ}
    (h : token ≠ t.snapshotVersion channelId message.messageId) :
    (ArchiveCall.reconcileEdit configured channelId message (some token)).fate t = .kept := by
  have hfate : t.snapshotFate channelId message true (some token) = .kept :=
    if_pos (by simpa [ArchiveTables.snapshotVersion] using h)
  unfold ArchiveCall.fate
  split
  · rfl
  · split
    · rfl
    · split
      · rfl
      · exact hfate

variable (parser) in
/-- **A stale history read writes nothing.**  A token is read after `calls`, and a message fetched
with it is reconciled after `later`.  That changes nothing unless the snapshot was left alone all
the time; the version is 0 exactly while there is no snapshot, and every change advances it by
one. -/
theorem stale_history_writes_nothing (calls later : List ArchiveCall)
    (configured : Option SettingValue) (channelId : ℤ) (message : ArchiveMessage) :
    let t := Transition.run (call parser) empty calls
    let t' := Transition.run (call parser) t later
    let token := t.snapshotVersion channelId message.messageId
    (t'.call parser (.reconcileEdit configured channelId message (some token)) = t' ∨
        Transition.Always (call parser)
          (fun u =>
            u.snapshot? channelId message.messageId = t.snapshot? channelId message.messageId)
          t later) ∧
      (t'.snapshotVersion channelId message.messageId = 0 ↔
        t'.snapshot? channelId message.messageId = none) ∧
      ∀ c, (t'.call parser c).snapshot? channelId message.messageId =
          t'.snapshot? channelId message.messageId ∨
        (t'.call parser c).snapshotVersion channelId message.messageId =
          t'.snapshotVersion channelId message.messageId + 1 := by
  intro t t' token
  have ht : t.Sound := run_sound calls
  have ht' : t'.Sound := Transition.run_invariant (fun _ c ht => ht.call c) ht later
  have hversioned : t'.Versioned := by
    have hrun : (Transition.run (call parser) empty (calls ++ later)).Versioned :=
      run_versioned (calls ++ later)
    rw [Transition.run_append] at hrun
    exact hrun
  refine ⟨?_, hversioned channelId message.messageId, fun c => ?_⟩
  · rcases ht.snapshotVersion_run later with halways | hlt
    · exact .inr halways
    · exact .inl (ht'.toLinked.call_eq_self (fate_of_stale hlt.ne))
  · have hstep : CallStep parser t' c (t'.call parser c) := ht'.toLinked.callStep c
    exact hstep.snapshotVersion

end

end ArchiveTables

/-! ### Live events of one post -/

/-- A post and its edits, which have different edit times. -/
structure Post where
  original : ArchiveMessage
  edits : Set ArchiveMessage
  unedited : original.editedAt = none
  sameMessage : ∀ e ∈ edits, e.messageId = original.messageId
  edited : ∀ e ∈ edits, e.editedAt.isSome
  distinct : ∀ e ∈ edits, ∀ e' ∈ edits, e.editedAt = e'.editedAt → e = e'

/-- When a message was edited; a message that was not edited comes before every edit. -/
def ArchiveMessage.editTime (m : ArchiveMessage) : WithBot Instant := m.editedAt

namespace Post

/-- The message is the post or one of its edits. -/
def IsEvent (p : Post) (m : ArchiveMessage) : Prop := m = p.original ∨ m ∈ p.edits

/-- A call for another message, or a live event of the post. -/
def Live (p : Post) (channelId : ℤ) : ArchiveCall → Prop
  | .ingest _ callChannelId m =>
      callChannelId = channelId → m.messageId = p.original.messageId → m = p.original
  | .reconcileEdit _ callChannelId m token =>
      callChannelId = channelId → m.messageId = p.original.messageId → m ∈ p.edits ∧ token = none

variable {p : Post}

/-- Events are told apart by their times. -/
theorem IsEvent.eq_of_editTime {m m' : ArchiveMessage} (h : p.IsEvent m) (h' : p.IsEvent m')
    (htime : m.editedAt = m'.editedAt) : m = m' := by
  rcases h with rfl | h
  · rcases h' with rfl | h'
    · rfl
    · have hsome := p.edited m' h'
      rw [← htime, p.unedited] at hsome
      cases hsome
  · rcases h' with rfl | h'
    · have hsome := p.edited m h
      rw [htime, p.unedited] at hsome
      cases hsome
    · exact p.distinct m h m' h' htime

theorem Live.isEvent {channelId : ℤ} {c : ArchiveCall} (h : p.Live channelId c)
    (hchannel : c.channelId = channelId) (hid : c.message.messageId = p.original.messageId) :
    p.IsEvent c.message := by
  cases c with
  | ingest configured callChannelId m => exact .inl (h hchannel hid)
  | reconcileEdit configured callChannelId m token => exact .inr (h hchannel hid).1

end Post

/-- The message is the newest of the list. -/
def IsNewest (ms : List ArchiveMessage) (m : ArchiveMessage) : Prop :=
  m ∈ ms ∧ ∀ m' ∈ ms, m'.editTime ≤ m.editTime

theorem IsNewest.snoc_of_le {ms : List ArchiveMessage} {m new : ArchiveMessage} (h : IsNewest ms m)
    (hle : new.editTime ≤ m.editTime) : IsNewest (ms ++ [new]) m := by
  refine ⟨List.mem_append_left _ h.1, fun m' hm' => ?_⟩
  rcases List.mem_append.1 hm' with hm' | hm'
  · exact h.2 m' hm'
  · rw [List.mem_singleton.1 hm']
    exact hle

theorem IsNewest.snoc_of_ge {ms : List ArchiveMessage} {m new : ArchiveMessage} (h : IsNewest ms m)
    (hle : m.editTime ≤ new.editTime) : IsNewest (ms ++ [new]) new := by
  refine ⟨List.mem_append_right _ List.mem_cons_self, fun m' hm' => ?_⟩
  rcases List.mem_append.1 hm' with hm' | hm'
  · exact (h.2 m' hm').trans hle
  · rw [List.mem_singleton.1 hm']

theorem isNewest_singleton (m : ArchiveMessage) : IsNewest [m] m :=
  ⟨List.mem_cons_self, fun m' hm' => by rw [List.mem_singleton.1 hm']⟩

/-- The snapshot has the content of the message. -/
structure ArchiveMessageSnapshot.Holds (s : ArchiveMessageSnapshot) (m : ArchiveMessage) :
    Prop where
  mediaKind : s.mediaKind = m.mediaKind
  caption : s.caption = m.caption
  editedAt : s.editedAt = m.editedAt

namespace ArchiveTables

section

variable [UnicodeData] (parser : ArchiveParser)

/-- The call brings an event of the message to its configured channel, and commits. -/
def delivers (t : ArchiveTables) (channelId : ℤ) (messageId : ℕ) (c : ArchiveCall) : Bool :=
  c.channelId = channelId && c.message.messageId = messageId &&
    (match getInt c.configured with
      | .ok configuredId => configuredId = some channelId
      | .error _ => false) &&
    match t.outcome parser c with
      | .ok _ => true
      | .error _ => false

/-- The events of a message that a run commits. -/
def delivered (channelId : ℤ) (messageId : ℕ) :
    ArchiveTables → List ArchiveCall → List ArchiveMessage
  | _, [] => []
  | t, c :: calls =>
      if t.delivers parser channelId messageId c then
        c.message :: delivered channelId messageId (t.call parser c) calls
      else delivered channelId messageId (t.call parser c) calls

variable {parser} {t t' : ArchiveTables} {channelId : ℤ} {messageId : ℕ} {c : ArchiveCall}
  {p : Post} {s : ArchiveMessageSnapshot}

theorem delivered_snoc (calls : List ArchiveCall) :
    delivered parser channelId messageId t (calls ++ [c]) =
      delivered parser channelId messageId t calls ++
        if (Transition.run (call parser) t calls).delivers parser channelId messageId c then
          [c.message] else [] := by
  induction calls generalizing t with
  | nil => rfl
  | cons c' calls ih =>
      rw [List.cons_append, delivered, delivered, ih, Transition.run_cons]
      split
      · rw [List.cons_append]
      · rfl

theorem delivers_iff : t.delivers parser channelId messageId c ↔
    (c.channelId = channelId ∧ c.message.messageId = messageId) ∧
      getInt c.configured = .ok (some channelId) ∧ ∃ result, t.outcome parser c = .ok result := by
  simp only [delivers, Bool.and_eq_true, decide_eq_true_eq]
  refine and_assoc.trans (and_congr_right fun _ => and_congr ?_ ?_)
  · cases getInt c.configured with
    | ok configuredId => simp
    | error error => simp
  · cases t.outcome parser c with
    | ok result => simp
    | error error => simp

/-- A message id that a commit has gone through with is no larger than a `BIGINT`. -/
theorem messageId_le_of_outcome (hconfigured : getInt c.configured = .ok (some c.channelId))
    (h : ∃ result, t.outcome parser c = .ok result) : c.message.messageId ≤ bigintMax := by
  by_contra hlarge
  obtain ⟨result, hok⟩ := h
  cases c with
  | ingest configured channelId message =>
      have hconfigured : getInt configured = .ok (some channelId) := hconfigured
      have hlarge : bigintMax < message.messageId := not_le.1 hlarge
      simp [outcome, ArchiveTables.ingest, indexTransaction, hconfigured, hlarge] at hok
  | reconcileEdit configured channelId message token =>
      have hconfigured : getInt configured = .ok (some channelId) := hconfigured
      have hlarge : bigintMax < message.messageId := not_le.1 hlarge
      simp [outcome, ArchiveTables.reconcileEdit, indexTransaction, hconfigured, hlarge] at hok

omit [UnicodeData] in
/-- The fate of a message that reaches its channel. -/
theorem fate_eq_snapshotFate (hconfigured : getInt c.configured = .ok (some c.channelId))
    (hid : c.message.messageId ≤ bigintMax) :
    c.fate t = match c with
      | .ingest _ channelId message => t.snapshotFate channelId message false none
      | .reconcileEdit _ channelId message token =>
          t.snapshotFate channelId message true token := by
  unfold ArchiveCall.fate
  rw [hconfigured]
  simp only [ne_eq, not_true, if_false, not_lt.2 hid]
  cases c <;> rfl

omit [UnicodeData] in
/-- **The rule of the edit times**: an event of the post is recorded when it is newer than what is
recorded, and nothing but that is recorded or put in conflict. -/
theorem fate_of_live (hlive : p.Live channelId c) (hchannel : c.channelId = channelId)
    (hid : c.message.messageId = p.original.messageId)
    (hconfigured : getInt c.configured = .ok (some channelId))
    (hbound : c.message.messageId ≤ bigintMax) :
    (t.snapshot? channelId p.original.messageId = none → c.fate t = .recorded) ∧
      ∀ s m, t.snapshot? channelId p.original.messageId = some s → s.Holds m → p.IsEvent m →
        c.fate t = if c.message.editTime ≤ m.editTime then .kept else .recorded := by
  rw [fate_eq_snapshotFate (hchannel.symm ▸ hconfigured) hbound]
  cases c with
  | ingest configured callChannelId message =>
      obtain rfl : callChannelId = channelId := hchannel
      have hmessage : message = p.original := hlive rfl hid
      have hid : message.messageId = p.original.messageId := hid
      constructor
      · intro hnone
        simp [snapshotFate, hid, hnone]
      · intro s m hs hholds hevent
        have hle : message.editTime ≤ m.editTime := by
          have hbot : message.editTime = ⊥ := by
            rw [hmessage]
            exact p.unedited
          rw [hbot]
          exact bot_le
        have hle : (ArchiveCall.ingest configured callChannelId message).message.editTime ≤
            m.editTime :=
          hle
        rw [if_pos hle]
        simp [snapshotFate, hid, hs]
  | reconcileEdit configured callChannelId message token =>
      obtain rfl : callChannelId = channelId := hchannel
      obtain ⟨hedit, rfl⟩ := hlive rfl hid
      have hid : message.messageId = p.original.messageId := hid
      constructor
      · intro hnone
        simp [snapshotFate, hid, hnone]
      · intro s m hs hholds hevent
        have hmessage : (ArchiveCall.reconcileEdit configured callChannelId message none).message =
            message := rfl
        rw [hmessage]
        obtain ⟨edited, hedited⟩ := Option.isSome_iff_exists.1 (p.edited message hedit)
        have htime : message.editTime = (edited : WithBot Instant) := hedited
        cases hold : s.editedAt with
        | none =>
            have hbot : m.editTime = ⊥ := hholds.editedAt.symm.trans hold
            rw [hbot, htime, if_neg (by simp)]
            simp [snapshotFate, hid, hs, hold]
        | some recorded =>
            have hrecorded : m.editTime = (recorded : WithBot Instant) :=
              hholds.editedAt.symm.trans hold
            rw [hrecorded, htime]
            simp only [WithBot.coe_le_coe]
            rcases lt_trichotomy edited recorded with hlt | heq | hgt
            · rw [if_pos hlt.le]
              simp [snapshotFate, hid, hs, hold, hedited, hlt]
            · -- the same time means the same event, and the same content
              have hsame : m = message := by
                refine hevent.eq_of_editTime (.inr hedit) ?_
                rw [← hholds.editedAt, hold, hedited, heq]
              subst hsame
              rw [if_pos heq.le]
              simp [snapshotFate, hid, hs, hold, hedited, heq, hholds.mediaKind, hholds.caption]
            · rw [if_neg (not_le.2 hgt)]
              simp [snapshotFate, hid, hs, hold, hedited, not_lt.2 hgt.le, hgt.ne']

omit [UnicodeData] in
theorem fate_of_other_channel (h : getInt c.configured ≠ .ok (some c.channelId)) :
    c.fate t = .kept := by
  unfold ArchiveCall.fate
  split
  · rfl
  · next configuredId hconfigured =>
      rw [if_pos]
      rintro rfl
      exact h hconfigured

omit [UnicodeData] in
theorem fate_of_large (h : bigintMax < c.message.messageId) : c.fate t = .kept := by
  unfold ArchiveCall.fate
  split
  · rfl
  · split
    · rfl
    · rfl

/-- A call that raises is undone. -/
theorem call_of_outcome_error {error : DbError} (h : t.outcome parser c = .error error) :
    t.call parser c = t := by
  cases c with
  | ingest configured channelId message =>
      have h : t.ingest parser configured channelId message = .error error := h
      rw [ArchiveTables.call, h]
  | reconcileEdit configured channelId message token =>
      have h : t.reconcileEdit parser configured channelId message token = .error error := h
      rw [ArchiveTables.call, h]

/-- The snapshot of the post holds the newest event of the list, without a conflict. -/
structure Reflected (t : ArchiveTables) (channelId : ℤ) (p : Post) (ms : List ArchiveMessage) :
    Prop where
  events : ∀ m ∈ ms, p.IsEvent m
  absent : t.snapshot? channelId p.original.messageId = none → ms = []
  holds : ∀ s, t.snapshot? channelId p.original.messageId = some s →
    s.conflicted = false ∧ ∃ m, IsNewest ms m ∧ s.Holds m

/-- When the content of the snapshot was edited. -/
def recordedTime (t : ArchiveTables) (channelId : ℤ) (messageId : ℕ) : WithBot Instant :=
  (t.snapshot? channelId messageId).bind ArchiveMessageSnapshot.editedAt

/-- A call that records its message and is answered leaves the snapshot of the message. -/
theorem snapshot?_of_recorded (ht : t.Linked) (hfate : c.fate t = .recorded)
    (hok : ∃ result, t.outcome parser c = .ok result) :
    (t.call parser c).snapshot? c.channelId c.message.messageId =
      some (t.recordedSnapshot c.channelId c.message) := by
  have hstep : CallStep parser t c (t.call parser c) := ht.callStep c
  generalize t.call parser c = t' at hstep
  cases hstep with
  | unchanged hundone =>
      rcases hundone with hkept | ⟨error, herror⟩
      · rw [hfate] at hkept
        cases hkept
      · obtain ⟨result, hresult⟩ := hok
        rw [hresult] at herror
        cases herror
  | conflicted s hs hconflict _ =>
      rw [hfate] at hconflict
      cases hconflict
  | indexed _ _ _ hindex _ =>
      rw [ArchiveTables.snapshot?, hindex.snapshots_eq]
      have hrecorded : (t.recordMessage c.channelId c.message).snapshot? c.channelId
          c.message.messageId = _ := snapshot?_recordMessage
      rw [if_pos rfl] at hrecorded
      exact hrecorded

/-- **One live call**: the newest event is held, and the time of the snapshot does not go back. -/
theorem Reflected.call {ms : List ArchiveMessage} (h : t.Reflected channelId p ms) (ht : t.Linked)
    (hlive : p.Live channelId c) :
    (t.call parser c).Reflected channelId p (ms ++
        if t.delivers parser channelId p.original.messageId c then [c.message] else []) ∧
      t.recordedTime channelId p.original.messageId ≤
        (t.call parser c).recordedTime channelId p.original.messageId := by
  -- a call that leaves the snapshot and delivers nothing
  have hkeep : (t.call parser c).snapshot? channelId p.original.messageId =
      t.snapshot? channelId p.original.messageId → (t.call parser c).Reflected channelId p ms ∧
        t.recordedTime channelId p.original.messageId ≤
          (t.call parser c).recordedTime channelId p.original.messageId := by
    intro hsame
    refine ⟨⟨h.events, hsame ▸ h.absent, hsame ▸ h.holds⟩, le_of_eq ?_⟩
    rw [recordedTime, recordedTime, hsame]
  have hstep : CallStep parser t c (t.call parser c) := ht.callStep c
  by_cases hdelivers : t.delivers parser channelId p.original.messageId c
  · obtain ⟨⟨hchannel, hid⟩, hconfigured, hok⟩ := delivers_iff.1 hdelivers
    have hbound := messageId_le_of_outcome (hchannel.symm ▸ hconfigured) hok
    have hevent := hlive.isEvent hchannel hid
    obtain ⟨hfate_none, hfate_some⟩ :
        (t.snapshot? channelId p.original.messageId = none → c.fate t = .recorded) ∧ _ :=
      fate_of_live hlive hchannel hid hconfigured hbound
    rw [if_pos hdelivers]
    have hevents : ∀ m ∈ ms ++ [c.message], p.IsEvent m := by
      intro m hm
      rcases List.mem_append.1 hm with hm | hm
      · exact h.events m hm
      · rw [List.mem_singleton.1 hm]
        exact hevent
    -- the message is recorded when its fate says so
    have hrecord : c.fate t = .recorded →
        (t.call parser c).snapshot? channelId p.original.messageId =
          some (t.recordedSnapshot c.channelId c.message) := by
      intro hfate
      rw [← hchannel, ← hid]
      exact snapshot?_of_recorded ht hfate hok
    cases hs : t.snapshot? channelId p.original.messageId with
    | none =>
        have hafter := hrecord (hfate_none hs)
        refine ⟨⟨hevents, fun hnone => ?_, fun s' hs' => ?_⟩, ?_⟩
        · rw [hafter] at hnone
          cases hnone
        · rw [hafter] at hs'
          cases hs'
          rw [h.absent hs]
          exact ⟨rfl, c.message, isNewest_singleton _, ⟨rfl, rfl, rfl⟩⟩
        · rw [recordedTime, hs]
          exact bot_le
    | some s =>
        obtain ⟨hconflicted, m, hnewest, hholds⟩ := h.holds s hs
        have hfate := hfate_some s m hs hholds (h.events m hnewest.1)
        by_cases hle : c.message.editTime ≤ m.editTime
        · rw [if_pos hle] at hfate
          have hself : t.call parser c = t := ht.call_eq_self hfate
          rw [hself]
          refine ⟨⟨hevents, fun hnone => ?_, fun s' hs' => ?_⟩, le_rfl⟩
          · rw [hs] at hnone
            cases hnone
          · rw [hs] at hs'
            cases hs'
            exact ⟨hconflicted, m, hnewest.snoc_of_le hle, hholds⟩
        · rw [if_neg hle] at hfate
          have hafter := hrecord hfate
          refine ⟨⟨hevents, fun hnone => ?_, fun s' hs' => ?_⟩, ?_⟩
          · rw [hafter] at hnone
            cases hnone
          · rw [hafter] at hs'
            cases hs'
            exact ⟨rfl, c.message, hnewest.snoc_of_ge (not_le.1 hle).le, ⟨rfl, rfl, rfl⟩⟩
          · rw [recordedTime, recordedTime, hs, hafter]
            have hbefore : s.editedAt = m.editedAt := hholds.editedAt
            rw [Option.bind_some, Option.bind_some, hbefore]
            exact (not_le.1 hle).le
  · rw [if_neg hdelivers, List.append_nil]
    by_cases hkey : c.channelId = channelId ∧ c.message.messageId = p.original.messageId
    · have hself : t.call parser c = t := by
        by_cases hconfigured : getInt c.configured = .ok (some channelId)
        · cases houtcome : t.outcome parser c with
          | ok result =>
              exact absurd (delivers_iff.2 ⟨hkey, hconfigured, result, houtcome⟩) hdelivers
          | error error => exact call_of_outcome_error houtcome
        · exact ht.call_eq_self (fate_of_other_channel (hkey.1.symm ▸ hconfigured))
      exact hkeep (by rw [hself])
    · have hother : (t.call parser c).snapshot? channelId p.original.messageId =
          t.snapshot? channelId p.original.messageId ∨ _ := hstep.snapshot?
      rcases hother with hsame | ⟨hsame_key, -⟩
      · exact hkeep hsame
      · exact absurd hsame_key hkey

/-- **Live deliveries keep the newest event**, and the time of the snapshot does not go back. -/
theorem run_reflected {calls : List ArchiveCall} (hlive : ∀ c ∈ calls, p.Live channelId c) :
    (Transition.run (ArchiveTables.call parser) empty calls).Reflected channelId p
      (delivered parser channelId p.original.messageId empty calls) := by
  induction calls using List.reverseRecOn with
  | nil => exact ⟨fun m hm => (by cases hm), fun _ => rfl, fun s hs => (by cases hs)⟩
  | append_singleton calls c ih =>
      have hcalls := ih fun c' hc' => hlive c' (List.mem_append_left _ hc')
      rw [Transition.run_snoc, delivered_snoc]
      exact (hcalls.call (run_sound calls).toLinked
        (hlive c (List.mem_append_right _ List.mem_cons_self))).1

variable (parser) in
/-- **The order and the repetition of live events do not matter.**  After live deliveries the
snapshot of a post is free of conflicts and holds the newest event that was committed.  One more
call does not set its time back; and an event that is not newer than what is recorded changes
nothing. -/
theorem newest_event_is_recorded (p : Post) (channelId : ℤ) (calls : List ArchiveCall)
    (c : ArchiveCall) (hlive : ∀ c' ∈ calls ++ [c], p.Live channelId c') :
    let t := Transition.run (call parser) empty calls
    let ms := delivered parser channelId p.original.messageId empty calls
    ((ms ≠ [] → (t.snapshot? channelId p.original.messageId).isSome) ∧
        ∀ s, t.snapshot? channelId p.original.messageId = some s →
          s.conflicted = false ∧ ∃ m, IsNewest ms m ∧ s.Holds m) ∧
      t.recordedTime channelId p.original.messageId ≤
        (t.call parser c).recordedTime channelId p.original.messageId ∧
      (c.channelId = channelId → c.message.messageId = p.original.messageId →
        ∀ s, t.snapshot? channelId p.original.messageId = some s →
          c.message.editTime ≤ t.recordedTime channelId p.original.messageId →
            t.call parser c = t) := by
  intro t ms
  have ht : t.Linked := (run_sound calls).toLinked
  have hreflected : t.Reflected channelId p ms :=
    run_reflected fun c' hc' => hlive c' (List.mem_append_left _ hc')
  have hc : p.Live channelId c := hlive c (List.mem_append_right _ List.mem_cons_self)
  refine ⟨⟨fun hne => ?_, hreflected.holds⟩, (hreflected.call ht hc).2,
    fun hchannel hid s hs hle => ?_⟩
  · refine Option.isSome_iff_ne_none.2 fun hnone => ?_
    exact hne (hreflected.absent hnone)
  · obtain ⟨-, m, hnewest, hholds⟩ := hreflected.holds s hs
    have htime : t.recordedTime channelId p.original.messageId = m.editTime := by
      rw [recordedTime, hs, Option.bind_some, hholds.editedAt]
      rfl
    rw [htime] at hle
    by_cases hconfigured : getInt c.configured = .ok (some channelId)
    · by_cases hbound : c.message.messageId ≤ bigintMax
      · have hfate := (fate_of_live hc hchannel hid hconfigured hbound).2 s m hs hholds
          (hreflected.events m hnewest.1)
        rw [if_pos hle] at hfate
        exact ht.call_eq_self hfate
      · exact ht.call_eq_self (fate_of_large (not_le.1 hbound))
    · exact ht.call_eq_self (fate_of_other_channel (hchannel.symm ▸ hconfigured))

end

/-! ### Two posts -/

section

attribute [local instance] UnicodeData.asciiArabic

/-- A poster of channel 7. -/
def posterVersion (title : Str) (editedAt : Option Instant) : ArchiveMessage where
  messageId := 1
  mediaKind := .photo
  caption := some ("الفيلم: ".toList ++ title ++ "\nالسنة: 2014".toList)
  editedAt
  messageId_pos := Nat.one_pos

/-- A poster with its edits. -/
def posterPost (edits : List (Str × Instant))
    (h : (edits.map Prod.snd).Nodup) : Post where
  original := posterVersion "Up".toList none
  edits := fun m => ∃ e ∈ edits, m = posterVersion e.1 (some e.2)
  unedited := rfl
  sameMessage := by
    rintro m ⟨e, -, rfl⟩
    rfl
  edited := by
    rintro m ⟨e, -, rfl⟩
    rfl
  distinct := by
    rintro m ⟨e, he, rfl⟩ m' ⟨e', he', rfl⟩ htime
    have htime : e.2 = e'.2 := Option.some.inj htime
    rw [List.inj_on_of_nodup_map h he he' htime]

/-- The poster is edited to a title that does not fit its column. -/
def longTitleCalls : List ArchiveCall :=
  [.ingest (some (.int 7)) 7 (posterVersion "Up".toList none),
    .reconcileEdit (some (.int 7)) 7 (posterVersion (List.replicate 513 'x') (some 5)) none]

/-- The transaction of the only edit is undone, and the snapshot stays the one of the post. -/
theorem long_title_is_not_recorded :
    (∀ c ∈ longTitleCalls,
      (posterPost [(List.replicate 513 'x', 5)] (List.nodup_singleton _)).Live 7 c) ∧
      ∃ s, (Transition.run (call {}) empty longTitleCalls).snapshot? 7 1 = some s ∧
        s.Holds (posterVersion "Up".toList none) ∧
          ¬s.Holds (posterVersion (List.replicate 513 'x') (some 5)) := by
  constructor
  · intro c hc
    rcases List.mem_cons.1 hc with rfl | hc
    · exact fun _ _ => rfl
    · rw [List.mem_singleton.1 hc]
      exact fun _ _ => ⟨⟨_, List.mem_cons_self, rfl⟩, rfl⟩
  · refine ⟨newSnapshot 7 (posterVersion "Up".toList none), ?_, ⟨rfl, rfl, rfl⟩, fun h => ?_⟩
    · decide +kernel
    · cases h.editedAt

/-- The edits of a poster come out of order, and the newest one twice. -/
def shuffledCalls : List ArchiveCall :=
  [.reconcileEdit (some (.int 7)) 7 (posterVersion "Up again".toList (some 9)) none,
    .ingest (some (.int 7)) 7 (posterVersion "Up".toList none),
    .reconcileEdit (some (.int 7)) 7 (posterVersion "Up at last".toList (some 5)) none]

theorem newest_event_is_recorded_shuffled :
    (Transition.run (call {}) empty shuffledCalls).call {}
        (.reconcileEdit (some (.int 7)) 7 (posterVersion "Up again".toList (some 9)) none) =
      Transition.run (call {}) empty shuffledCalls := by
  have hlive : ∀ c ∈ shuffledCalls ++
      [.reconcileEdit (some (.int 7)) 7 (posterVersion "Up again".toList (some 9)) none],
      (posterPost [("Up again".toList, 9), ("Up at last".toList, 5)] (by decide)).Live 7 c := by
    intro c hc
    simp only [shuffledCalls, List.cons_append, List.nil_append, List.mem_cons, List.not_mem_nil,
      or_false] at hc
    rcases hc with rfl | rfl | rfl | rfl
    · exact fun _ _ => ⟨⟨_, List.mem_cons_self, rfl⟩, rfl⟩
    · exact fun _ _ => rfl
    · exact fun _ _ => ⟨⟨_, List.mem_cons_of_mem _ List.mem_cons_self, rfl⟩, rfl⟩
    · exact fun _ _ => ⟨⟨_, List.mem_cons_self, rfl⟩, rfl⟩
  have hrecorded : (Transition.run (call {}) empty shuffledCalls).snapshot? 7 1 =
      some (newSnapshot 7 (posterVersion "Up again".toList (some 9))) := by decide +kernel
  refine (newest_event_is_recorded {} _ 7 shuffledCalls _ hlive).2.2 rfl rfl _ hrecorded ?_
  rw [recordedTime]
  exact le_of_eq (congrArg (fun s => Option.bind s ArchiveMessageSnapshot.editedAt) hrecorded).symm

end

end ArchiveTables

end CineGate
