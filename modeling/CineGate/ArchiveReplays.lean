/-
**Replaying the messages of a movie.**

A full reindex passes `reconcile_edit` over the messages of the archive in ascending order, a batch
at a time, with the snapshot versions that it read before the batch.  When nothing else writes
meanwhile, every message it passes is recorded as it is now; the passes can be followed through the
snapshots up to the message that is replayed.

* `ArchiveTables.replayBatch`, `ArchiveTables.replay` — the calls of a batch and of a pass;
* `ArchiveTables.replay_eq` — the batches do not matter;
* `ArchiveTables.reconcileEdit_replayed` — a call with a fresh version records its message;
* `ArchiveTables.Agrees`, `ArchiveTables.movieMessages_eq_of_agrees` — tables whose snapshots show
  the same messages up to some id;
* `ArchiveParser.mem_groupOf_through` — a quality of a group is accepted when it arrives.
-/

import CineGate.SnapshotHistory
import CineGate.GroupingRule

set_option relaxedAutoImplicit false
set_option autoImplicit false

namespace CineGate

/-- Messages in ascending order are told apart by their ids. -/
theorem eq_of_messageId_eq {messages : List ArchiveMessage}
    (hascending : messages.Pairwise fun m m' => m.messageId < m'.messageId) {m m' : ArchiveMessage}
    (hm : m ∈ messages) (hm' : m' ∈ messages) (h : m.messageId = m'.messageId) : m = m' := by
  have hnodup : (messages.map ArchiveMessage.messageId).Nodup :=
    List.pairwise_map.2 (hascending.imp fun hlt => hlt.ne)
  exact List.inj_on_of_nodup_map hnodup hm hm' h

section

variable {ε β γ : Type*} {f : β → γ → Except ε β} {b b' : β}

theorem foldlM_cons_eq_ok {a : γ} {l : List γ} :
    (a :: l).foldlM f b = .ok b' ↔ ∃ b₁, f b a = .ok b₁ ∧ l.foldlM f b₁ = .ok b' := by
  rw [List.foldlM_cons]
  cases f b a with
  | error error => exact iff_of_false (fun h => (by cases h)) fun ⟨_, h, _⟩ => (by cases h)
  | ok b₁ => exact ⟨fun h => ⟨b₁, rfl, h⟩, fun ⟨_, h, hrest⟩ => Except.ok.inj h ▸ hrest⟩

theorem foldlM_append_eq_ok {l l' : List γ} :
    (l ++ l').foldlM f b = .ok b' ↔ ∃ b₁, l.foldlM f b = .ok b₁ ∧ l'.foldlM f b₁ = .ok b' := by
  induction l generalizing b with
  | nil => exact ⟨fun h => ⟨b, rfl, h⟩, fun ⟨_, h, hrest⟩ => Except.ok.inj h ▸ hrest⟩
  | cons a l ih =>
      simp only [List.cons_append, foldlM_cons_eq_ok, ih]
      tauto

end

namespace ArchiveTables

section

variable [UnicodeData] (parser : ArchiveParser) (configured : Option SettingValue) (channelId : ℤ)

/-- `reconcile_edit` for one message of a pass, with the version that was read for it. -/
def replayMessage (t : ArchiveTables) (message : ArchiveMessage) (version : ℕ) :
    Except DbError ArchiveTables :=
  (t.reconcileEdit parser configured channelId message (some version)).map Prod.fst

/-- One batch of a pass: the versions are read, and then the messages are reconciled. -/
def replayBatch (t : ArchiveTables) (batch : List ArchiveMessage) : Except DbError ArchiveTables :=
  (batch.map fun message => (message, t.snapshotVersion channelId message.messageId)).foldlM
    (fun t p => t.replayMessage parser configured channelId p.1 p.2) t

/-- A pass over the batches. -/
def replay (t : ArchiveTables) (batches : List (List ArchiveMessage)) :
    Except DbError ArchiveTables :=
  batches.foldlM (replayBatch parser configured channelId) t

/-- `reconcile_edit` with the version the snapshot has when it is called. -/
def replayNow (t : ArchiveTables) (message : ArchiveMessage) : Except DbError ArchiveTables :=
  t.replayMessage parser configured channelId message
    (t.snapshotVersion channelId message.messageId)

end

/-- Telegram does not show the message older than it is recorded. -/
def IsCurrent (t : ArchiveTables) (channelId : ℤ) (message : ArchiveMessage) : Prop :=
  ∀ s, t.snapshot? channelId message.messageId = some s →
    ∀ recorded, s.editedAt = some recorded → ∃ edited, message.editedAt = some edited ∧
      recorded ≤ edited

section

variable [UnicodeData] {parser : ArchiveParser} {configured : Option SettingValue} {channelId : ℤ}
  {t t' : ArchiveTables} {message : ArchiveMessage}

/-! ### One call -/

/-- With a fresh version a message that is not older is recorded. -/
theorem recordSnapshot_of_isCurrent (hcurrent : t.IsCurrent channelId message) :
    t.recordSnapshot parser channelId message true
        (some (t.snapshotVersion channelId message.messageId)) =
      (t.recordMessage channelId message, true) := by
  unfold recordSnapshot recordMessage snapshotVersion
  dsimp only
  rw [if_neg (by simp)]
  cases hs : t.snapshot? channelId message.messageId with
  | none => rfl
  | some s =>
      dsimp only
      rw [if_neg (by simp)]
      cases hrecorded : s.editedAt with
      | none => rfl
      | some recorded =>
          obtain ⟨edited, hedited, hle⟩ := hcurrent s hs recorded hrecorded
          simp [hedited, not_lt.2 hle]

/-- **A call with a fresh version** indexes the message that it has recorded. -/
theorem reconcileEdit_replayed (hconfigured : getInt configured = .ok (some channelId))
    (hcurrent : t.IsCurrent channelId message)
    (h : t.replayNow parser configured channelId message = .ok t') :
    (∃ result, (t.recordMessage channelId message).reconcileMessage parser channelId message =
      .ok (t', result)) ∧ t'.UniqueKeys := by
  unfold replayNow replayMessage at h
  cases hcall : t.reconcileEdit parser configured channelId message
      (some (t.snapshotVersion channelId message.messageId)) with
  | error error =>
      rw [hcall] at h
      cases h
  | ok p =>
      rw [hcall] at h
      obtain rfl := Except.ok.inj h
      unfold ArchiveTables.reconcileEdit indexTransaction at hcall
      rw [hconfigured] at hcall
      dsimp only at hcall
      rw [if_neg (by simp), recordSnapshot_of_isCurrent hcurrent] at hcall
      split at hcall
      · cases hcall
      · simp only [if_true] at hcall
        split at hcall
        · cases hcall
        · next t₂ result hindex =>
            obtain ⟨htables, hkeys⟩ := uniqueKeys_of_commit hcall
            rw [htables]
            exact ⟨⟨result, hindex⟩, htables ▸ hkeys⟩

/-- A replayed message leaves sound tables with its snapshot written. -/
theorem Sound.replayNow (ht : t.Sound) (hconfigured : getInt configured = .ok (some channelId))
    (hcurrent : t.IsCurrent channelId message)
    (h : t.replayNow parser configured channelId message = .ok t') :
    t'.Sound ∧ t'.snapshots = (t.recordMessage channelId message).snapshots := by
  obtain ⟨⟨result, hindex⟩, -⟩ := reconcileEdit_replayed hconfigured hcurrent h
  refine ⟨?_, (ht.toLinked.recordMessage.reconcileMessage_step hindex).snapshots_eq⟩
  have hcall : t.call parser (.reconcileEdit configured channelId message
      (some (t.snapshotVersion channelId message.messageId))) = t' := by
    unfold ArchiveTables.replayNow replayMessage at h
    unfold ArchiveTables.call
    dsimp only
    cases hedit : t.reconcileEdit parser configured channelId message
        (some (t.snapshotVersion channelId message.messageId)) with
    | error error =>
        rw [hedit] at h
        cases h
    | ok p =>
        rw [hedit] at h
        exact Except.ok.inj h
  exact hcall ▸ ht.call _

/-! ### Batches -/

/-- What the passes rely on: the tables are sound, and no message is shown older than recorded. -/
structure Ready (t : ArchiveTables) (channelId : ℤ) (messages : List ArchiveMessage) : Prop where
  sound : t.Sound
  current : ∀ m ∈ messages, t.IsCurrent channelId m

omit [UnicodeData] in
/-- A snapshot of another message is as before. -/
theorem snapshot?_replayed
    (hsnapshots : t'.snapshots = (t.recordMessage channelId message).snapshots)
    {messageId : ℕ} (hne : messageId ≠ message.messageId) :
    t'.snapshot? channelId messageId = t.snapshot? channelId messageId := by
  have hrecorded : (t.recordMessage channelId message).snapshot? channelId messageId = _ :=
    snapshot?_recordMessage
  rw [if_neg fun hkey => hne (Prod.ext_iff.1 (toLex.injective hkey)).2] at hrecorded
  rw [ArchiveTables.snapshot?, hsnapshots]
  exact hrecorded

omit [UnicodeData] in
theorem snapshot?_replayed_self
    (hsnapshots : t'.snapshots = (t.recordMessage channelId message).snapshots) :
    t'.snapshot? channelId message.messageId = some (t.recordedSnapshot channelId message) := by
  have hrecorded : (t.recordMessage channelId message).snapshot? channelId message.messageId = _ :=
    snapshot?_recordMessage
  rw [if_pos rfl] at hrecorded
  rw [ArchiveTables.snapshot?, hsnapshots]
  exact hrecorded

theorem Ready.replayNow {messages : List ArchiveMessage} (ht : t.Ready channelId messages)
    (hconfigured : getInt configured = .ok (some channelId))
    (hdistinct : ∀ m ∈ messages, ∀ m' ∈ messages, m.messageId = m'.messageId → m = m')
    (hmem : message ∈ messages) (h : t.replayNow parser configured channelId message = .ok t') :
    t'.Ready channelId messages := by
  obtain ⟨hsound, hsnapshots⟩ := ht.sound.replayNow hconfigured (ht.current message hmem) h
  refine ⟨hsound, fun m hm s hs recorded hrecorded => ?_⟩
  by_cases hid : m.messageId = message.messageId
  · obtain rfl := hdistinct m hm message hmem hid
    rw [snapshot?_replayed_self hsnapshots] at hs
    obtain rfl := Option.some.inj hs
    exact ⟨recorded, hrecorded, le_rfl⟩
  · rw [snapshot?_replayed hsnapshots hid] at hs
    exact ht.current m hm s hs recorded hrecorded

/-- The calls of a batch find the versions that were read before it. -/
theorem foldlM_replayMessage {messages : List ArchiveMessage} (ht : t.Ready channelId messages)
    (hconfigured : getInt configured = .ok (some channelId))
    (hdistinct : ∀ m ∈ messages, ∀ m' ∈ messages, m.messageId = m'.messageId → m = m')
    {batch : List (ArchiveMessage × ℕ)} (hbatch : ∀ p ∈ batch, p.1 ∈ messages)
    (hascending : (batch.map Prod.fst).Pairwise fun m m' => m.messageId < m'.messageId)
    (hversions : ∀ p ∈ batch, p.2 = t.snapshotVersion channelId p.1.messageId) :
    batch.foldlM (fun t p => t.replayMessage parser configured channelId p.1 p.2) t =
      (batch.map Prod.fst).foldlM (ArchiveTables.replayNow parser configured channelId) t := by
  induction batch generalizing t with
  | nil => rfl
  | cons p batch ih =>
      rw [List.map_cons, List.pairwise_cons] at hascending
      have hversion := hversions p List.mem_cons_self
      have hhead : t.replayMessage parser configured channelId p.1 p.2 =
          t.replayNow parser configured channelId p.1 := by rw [hversion, ArchiveTables.replayNow]
      rw [List.foldlM_cons, List.map_cons, List.foldlM_cons, hhead]
      cases hcall : t.replayNow parser configured channelId p.1 with
      | error error => rfl
      | ok t' =>
          have hmem := hbatch p List.mem_cons_self
          obtain ⟨-, hsnapshots⟩ := ht.sound.replayNow hconfigured (ht.current _ hmem) hcall
          refine ih (ht.replayNow hconfigured hdistinct hmem hcall)
            (fun q hq => hbatch q (List.mem_cons_of_mem p hq)) hascending.2 fun q hq => ?_
          rw [hversions q (List.mem_cons_of_mem p hq), snapshotVersion, snapshotVersion,
            snapshot?_replayed hsnapshots (hascending.1 q.1 (List.mem_map_of_mem hq)).ne']

/-- The messages of a pass are replayed one after the other. -/
theorem foldlM_ready {messages part : List ArchiveMessage} (ht : t.Ready channelId messages)
    (hconfigured : getInt configured = .ok (some channelId))
    (hdistinct : ∀ m ∈ messages, ∀ m' ∈ messages, m.messageId = m'.messageId → m = m')
    (hpart : ∀ m ∈ part, m ∈ messages)
    (h : part.foldlM (ArchiveTables.replayNow parser configured channelId) t = .ok t') :
    t'.Ready channelId messages := by
  induction part generalizing t with
  | nil =>
      obtain rfl := Except.ok.inj h
      exact ht
  | cons m part ih =>
      obtain ⟨t₁, hcall, hrest⟩ := foldlM_cons_eq_ok.1 h
      exact ih (ht.replayNow hconfigured hdistinct (hpart m List.mem_cons_self) hcall)
        (fun m' hm' => hpart m' (List.mem_cons_of_mem m hm')) hrest

/-- **The batches do not matter**: nothing else writes between the reading of a version and its
use. -/
theorem replay_eq {messages : List ArchiveMessage} (ht : t.Ready channelId messages)
    (hconfigured : getInt configured = .ok (some channelId))
    (hdistinct : ∀ m ∈ messages, ∀ m' ∈ messages, m.messageId = m'.messageId → m = m')
    {batches : List (List ArchiveMessage)} (hbatches : ∀ m ∈ batches.flatten, m ∈ messages)
    (hascending : batches.flatten.Pairwise fun m m' => m.messageId < m'.messageId) :
    t.replay parser configured channelId batches =
      batches.flatten.foldlM (ArchiveTables.replayNow parser configured channelId) t := by
  unfold replay
  induction batches generalizing t with
  | nil => rfl
  | cons batch batches ih =>
      rw [List.flatten_cons, List.pairwise_append] at hascending
      have hbatch : t.replayBatch parser configured channelId batch =
          batch.foldlM (ArchiveTables.replayNow parser configured channelId) t := by
        unfold replayBatch
        have hfst : (batch.map fun m => (m, t.snapshotVersion channelId m.messageId)).map Prod.fst =
            batch := by simp [Function.comp_def]
        rw [foldlM_replayMessage ht hconfigured hdistinct ?_ (by rw [hfst]; exact hascending.1) ?_,
          hfst]
        · intro p hp
          obtain ⟨m, hm, rfl⟩ := List.mem_map.1 hp
          exact hbatches m (List.mem_append_left _ hm)
        · intro p hp
          obtain ⟨m, hm, rfl⟩ := List.mem_map.1 hp
          rfl
      rw [List.foldlM_cons, List.flatten_cons, List.foldlM_append, hbatch]
      cases hrest : batch.foldlM (ArchiveTables.replayNow parser configured channelId) t with
      | error error => rfl
      | ok t₁ =>
          exact ih (foldlM_ready ht hconfigured hdistinct
              (fun m hm => hbatches m (List.mem_append_left _ hm)) hrest)
            (fun m hm => hbatches m (List.mem_append_right _ hm)) hascending.2.1

end

/-! ### What the range queries read -/

section

variable {t t' : ArchiveTables} {movie movie' : Movie} {channelId : ℤ} {messageId : ℕ}
  {through : Option ℕ}

/-- The range queries of the movie reach the message. -/
def Reaches (t : ArchiveTables) (movie : Movie) (messageId : ℕ) : Prop :=
  t.Covers movie movie.archiveChannelId messageId ∧ messageId < bigintMax

/-- No poster is beyond the largest `BIGINT`. -/
def PostersFit (t : ArchiveTables) : Prop := ∀ movie ∈ t.movies, movie.posterMessageId ≤ bigintMax

theorem PostersFit.of_samePlaces (ht : t.PostersFit) (h : SamePlaces t t') : t'.PostersFit := by
  intro movie' hmovie'
  obtain ⟨movie, hmovie, -, -, hposter⟩ := h.movie_origin hmovie'
  rw [← hposter]
  exact ht movie hmovie

theorem lt_rangeStop_iff (ht : t.PostersFit) : messageId < t.rangeStop movie ↔
    (t.nextPoster movie).all (messageId < ·) ∧ messageId < bigintMax := by
  unfold rangeStop
  cases hnext : t.nextPoster movie with
  | none => simp
  | some next =>
      have hmem := (List.min?_eq_some_iff.1 hnext).1
      obtain ⟨other, hother, rfl⟩ := List.mem_map.1 hmem
      have hfits := ht other (List.mem_filter.1 hother).1
      simp only [Option.getD_some, Option.all_some, decide_eq_true_eq]
      omega

theorem mem_snapshotsUpTo {s : ArchiveMessageSnapshot} {stop : ℕ} :
    s ∈ t.snapshotsUpTo movie stop ↔ s ∈ t.snapshots ∧
      s.archiveChannelId = movie.archiveChannelId ∧ movie.posterMessageId ≤ s.messageId ∧
        s.messageId < stop := by
  rw [snapshotsUpTo, List.mem_filter, Bool.and_eq_true, Bool.and_eq_true, decide_eq_true_eq,
    decide_eq_true_eq, decide_eq_true_eq, and_assoc]
  exact Iff.rfl

theorem snapshot?_eq_some {s : ArchiveMessageSnapshot} :
    t.snapshot? channelId messageId = some s ↔
      s ∈ t.snapshots ∧ s.archiveChannelId = channelId ∧ s.messageId = messageId := by
  rw [ArchiveTables.snapshot?, KeyedTable.find?_eq_some]
  refine and_congr_right fun _ => ⟨fun hkey => Prod.ext_iff.1 (toLex.injective hkey), ?_⟩
  rintro ⟨rfl, rfl⟩
  rfl

theorem mem_snapshotsUpTo_rangeStop (ht : t.PostersFit) {s : ArchiveMessageSnapshot} :
    s ∈ t.snapshotsUpTo movie (t.rangeStop movie) ↔
      t.snapshot? movie.archiveChannelId s.messageId = some s ∧ t.Reaches movie s.messageId := by
  rw [mem_snapshotsUpTo, snapshot?_eq_some, lt_rangeStop_iff ht, all_nextPoster, Reaches, Covers]
  tauto

theorem lt_firstConflict_iff (ht : t.PostersFit) (hid : messageId < bigintMax) :
    messageId < (t.firstConflict movie).getD bigintMax ↔
      ∀ id s, t.snapshot? movie.archiveChannelId id = some s → t.Reaches movie id →
        s.conflicted → messageId < id := by
  have hmem : ∀ id, id ∈ ((t.snapshotsUpTo movie (t.rangeStop movie)).filter fun s =>
      s.conflicted).map ArchiveMessageSnapshot.messageId ↔
      ∃ s, t.snapshot? movie.archiveChannelId id = some s ∧ t.Reaches movie id ∧ s.conflicted := by
    intro id
    rw [List.mem_map]
    constructor
    · rintro ⟨s, hs, rfl⟩
      obtain ⟨hs, hconflicted⟩ := List.mem_filter.1 hs
      obtain ⟨hs, hreach⟩ := (mem_snapshotsUpTo_rangeStop ht).1 hs
      exact ⟨s, hs, hreach, hconflicted⟩
    · rintro ⟨s, hs, hreach, hconflicted⟩
      obtain ⟨-, -, rfl⟩ := snapshot?_eq_some.1 hs
      exact ⟨s, List.mem_filter.2 ⟨(mem_snapshotsUpTo_rangeStop ht).2 ⟨hs, hreach⟩, hconflicted⟩,
        rfl⟩
  cases hfirst : t.firstConflict movie with
  | none =>
      have hempty := List.min?_eq_none_iff.1 hfirst
      refine iff_of_true hid fun id s hs hreach hconflicted => ?_
      have hid := (hmem id).2 ⟨s, hs, hreach, hconflicted⟩
      rw [hempty] at hid
      cases hid
  | some first =>
      obtain ⟨hfirst, hle⟩ := List.min?_eq_some_iff.1 hfirst
      rw [Option.getD_some]
      constructor
      · exact fun hlt id s hs hreach hconflicted =>
          hlt.trans_le (hle id ((hmem id).2 ⟨s, hs, hreach, hconflicted⟩))
      · intro h
        obtain ⟨s, hs, hreach, hconflicted⟩ := (hmem first).1 hfirst
        exact h first s hs hreach hconflicted

/-- **What `_parse_movie_group` reads**: the messages in reach, before the first conflict. -/
theorem mem_movieMessages_iff (ht : t.PostersFit) {m : ArchiveMessage} :
    m ∈ t.movieMessages movie through ↔
      (∃ s, t.snapshot? movie.archiveChannelId m.messageId = some s ∧ s.message = m) ∧
        t.Reaches movie m.messageId ∧
          (∀ id s, t.snapshot? movie.archiveChannelId id = some s → t.Reaches movie id →
            s.conflicted → m.messageId < id) ∧ through.all (m.messageId ≤ ·) := by
  have hrange : ∀ s, s ∈ t.snapshotsUpTo movie
      (min (t.rangeStop movie) ((t.firstConflict movie).getD bigintMax)) ↔
        (t.snapshot? movie.archiveChannelId s.messageId = some s ∧ t.Reaches movie s.messageId) ∧
          s.messageId < (t.firstConflict movie).getD bigintMax := by
    intro s
    rw [← mem_snapshotsUpTo_rangeStop ht, mem_snapshotsUpTo, mem_snapshotsUpTo, lt_min_iff]
    tauto
  rw [movieMessages, List.mem_map]
  constructor
  · rintro ⟨s, hs, rfl⟩
    obtain ⟨hs, hthrough⟩ := List.mem_filter.1 hs
    obtain ⟨⟨hs, hreach⟩, hconflict⟩ := (hrange s).1 hs
    exact ⟨⟨s, hs, rfl⟩, hreach, (lt_firstConflict_iff ht hreach.2).1 hconflict, hthrough⟩
  · rintro ⟨⟨s, hs, rfl⟩, hreach, hconflict, hthrough⟩
    exact ⟨s, List.mem_filter.2 ⟨(hrange s).2
      ⟨⟨hs, hreach⟩, (lt_firstConflict_iff ht hreach.2).2 hconflict⟩, hthrough⟩, rfl⟩

/-! ### Tables that show the same messages -/

/-- Both tables show the same messages under the ids, with the same conflicts. -/
def Agrees (t t' : ArchiveTables) (channelId : ℤ) (P : ℕ → Prop) : Prop :=
  ∀ id, P id → (t'.snapshot? channelId id).map (fun s => (s.message, s.conflicted)) =
    (t.snapshot? channelId id).map fun s => (s.message, s.conflicted)

theorem Agrees.symm {P : ℕ → Prop} (h : Agrees t t' channelId P) : Agrees t' t channelId P :=
  fun id hid => (h id hid).symm

theorem Agrees.exists_snapshot {P : ℕ → Prop} (h : Agrees t t' channelId P) {id : ℕ} (hid : P id)
    {s : ArchiveMessageSnapshot} (hs : t.snapshot? channelId id = some s) :
    ∃ s', t'.snapshot? channelId id = some s' ∧ s'.message = s.message ∧
      s'.conflicted = s.conflicted := by
  have heq := h id hid
  rw [hs, Option.map_some] at heq
  obtain ⟨s', hs', heq⟩ := Option.map_eq_some_iff.1 heq
  obtain ⟨hmessage, hconflicted⟩ := Prod.mk.inj heq
  exact ⟨s', hs', hmessage, hconflicted⟩

theorem reaches_iff_of_samePlaces (h : SamePlaces t t')
    (hplace : moviePlace movie' = moviePlace movie) :
    t'.Reaches movie' messageId ↔ t.Reaches movie messageId := by
  have hchannel : movie'.archiveChannelId = movie.archiveChannelId := congrArg Prod.fst hplace
  rw [Reaches, Reaches, hchannel, covers_iff_of_samePlaces h hplace]

theorem mem_movieMessages_of_agrees (ht : t.PostersFit) (ht' : t'.PostersFit)
    (hchannel : movie'.archiveChannelId = movie.archiveChannelId)
    (hreach : ∀ id, t'.Reaches movie' id ↔ t.Reaches movie id)
    (hagrees : Agrees t t' movie.archiveChannelId fun id => through.all (id ≤ ·))
    {m : ArchiveMessage} (hm : m ∈ t.movieMessages movie through) :
    m ∈ t'.movieMessages movie' through := by
  obtain ⟨⟨s, hs, hmessage⟩, hreached, hconflict, hthrough⟩ := (mem_movieMessages_iff ht).1 hm
  refine (mem_movieMessages_iff ht').2
    ⟨?_, (hreach _).2 hreached, fun id s' hs' hreached' hconflicted' => ?_, hthrough⟩
  · obtain ⟨s', hs', hmessage', -⟩ := hagrees.exists_snapshot hthrough hs
    exact ⟨s', hchannel ▸ hs', hmessage'.trans hmessage⟩
  · -- a conflict up to the message would be one in the other tables, too
    by_contra hle
    have hid : through.all (id ≤ ·) := by
      cases through with
      | none => rfl
      | some bound =>
          simp only [Option.all_some, decide_eq_true_eq] at hthrough ⊢
          omega
    obtain ⟨s, hs, -, hconflicted⟩ := hagrees.symm.exists_snapshot hid (hchannel ▸ hs')
    exact hle (hconflict id s hs ((hreach id).1 hreached') (hconflicted.trans hconflicted'))

/-- **Tables that show the same messages up to some id** hand the same messages to the parser. -/
theorem movieMessages_eq_of_agrees (ht : t.PostersFit) (ht' : t'.PostersFit)
    (hchannel : movie'.archiveChannelId = movie.archiveChannelId)
    (hreach : ∀ id, t'.Reaches movie' id ↔ t.Reaches movie id)
    (hagrees : Agrees t t' movie.archiveChannelId fun id => through.all (id ≤ ·)) :
    t'.movieMessages movie' through = t.movieMessages movie through := by
  have hascending : ∀ (t : ArchiveTables) (movie : Movie), (t.movieMessages movie through).Pairwise
      fun m m' => m.messageId < m'.messageId := by
    intro t movie
    have h : AscendingFrom 0 (t.movieMessages movie through) := ascending_movieMessages through
    rw [AscendingFrom, List.pairwise_cons, List.pairwise_map] at h
    exact h.2
  have : Std.Irrefl fun m m' : ArchiveMessage => m.messageId < m'.messageId :=
    ⟨fun _ => lt_irrefl _⟩
  have : Std.Antisymm fun m m' : ArchiveMessage => m.messageId < m'.messageId :=
    ⟨fun _ _ hlt hlt' => absurd (hlt.trans hlt') (lt_irrefl _)⟩
  refine List.Pairwise.eq_of_mem_iff (hascending _ _) (hascending _ _) fun m =>
    ⟨fun hm => ?_, fun hm => ?_⟩
  · exact mem_movieMessages_of_agrees ht' ht hchannel.symm (fun id => (hreach id).symm)
      (hchannel ▸ hagrees.symm) hm
  · exact mem_movieMessages_of_agrees ht ht' hchannel hreach hagrees hm

end

end ArchiveTables

/-! ### A part of a group -/

namespace ArchiveParser

variable [UnicodeData] {parser : ArchiveParser} {poster : PosterCandidate} {limit : Option ℕ}

variable {seg : List ArchiveMessage}

/-- What the group of a poster has accepted of the messages behind it. -/
theorem keeps_segment (hascending : (seg.map ArchiveMessage.messageId).Pairwise (· < ·)) :
    parser.Keeps poster (segment seg) (parser.windowItems (poster, segment seg)) :=
  windowItems_keeps (fun _ hm => by simpa using List.mem_takeWhile_imp hm)
    (hascending.sublist ((List.takeWhile_sublist _).map _))

/-- A group has one quality for each resolution. -/
theorem nodup_qualities_groupOf (hascending : (seg.map ArchiveMessage.messageId).Pairwise (· < ·)) :
    ((parser.groupOf limit (poster, segment seg)).qualities.map ParsedQuality.quality).Nodup :=
  ((parser.qualities_groupOf (poster, segment seg)).map _).nodup_iff.2
    (keeps_segment hascending).once

/-- **A quality of a group is accepted when it arrives**: the messages up to its own suffice. -/
theorem mem_groupOf_through {item : ParsedQuality}
    (hascending : (seg.map ArchiveMessage.messageId).Pairwise (· < ·))
    (hitem : item ∈ (parser.groupOf limit (poster, segment seg)).qualities) :
    item ∈ (parser.groupOf limit
      (poster, segment (seg.filter fun m => m.messageId ≤ item.messageId))).qualities := by
  have hplain : ∀ m ∈ segment seg, detectPoster m = none := fun m hm => by
    simpa using List.mem_takeWhile_imp hm
  have hsegment : segment seg ++ seg.dropWhile (fun m => (detectPoster m).isNone) = seg :=
    List.takeWhile_append_dropWhile
  have hkept := (parser.qualities_groupOf (poster, segment seg)).mem_iff.1 hitem
  obtain ⟨before, m, after, quality, hsplit, haccepted, hquality, rfl⟩ :=
    (((keeps_segment hascending).newest item).1 hkept).1
  -- in ascending order the messages up to the item are those before it
  have hthrough : seg.filter (fun m' => m'.messageId ≤ m.messageId) = before ++ [m] := by
    rw [hsplit, List.append_assoc, List.cons_append] at hsegment
    rw [← hsegment, List.map_append, List.map_cons, List.pairwise_append,
      List.pairwise_cons] at hascending
    obtain ⟨-, ⟨hafter, -⟩, hbefore⟩ := hascending
    rw [← hsegment, List.filter_append, List.filter_cons_of_pos (by simp)]
    have hall : before.filter (fun m' => m'.messageId ≤ m.messageId) = before :=
      List.filter_eq_self.2 fun m' hm' => by
        have hlt := hbefore _ (List.mem_map_of_mem hm') _ List.mem_cons_self
        simpa using hlt.le
    have hnone : (after ++ seg.dropWhile fun m => (detectPoster m).isNone).filter
        (fun m' => m'.messageId ≤ m.messageId) = [] :=
      List.filter_eq_nil_iff.2 fun m' hm' => by
        have hlt := hafter _ (List.mem_map_of_mem hm')
        simpa using hlt
    rw [hall, hnone]
  have hplain' : ∀ m' ∈ before ++ [m], detectPoster m' = none := fun m' hm' =>
    hplain m' (by
      rw [hsplit]
      rcases List.mem_append.1 hm' with hm' | hm'
      · exact List.mem_append_left _ hm'
      · rw [List.mem_singleton.1 hm']
        exact List.mem_append_right _ List.mem_cons_self)
  have hascending'' : ((before ++ [m]).map ArchiveMessage.messageId).Pairwise (· < ·) := by
    rw [← hthrough]
    exact hascending.sublist (List.filter_sublist.map _)
  have hid : (itemOf poster before m quality).messageId = m.messageId := rfl
  rw [hid, hthrough, segment_of_none hplain']
  refine (parser.qualities_groupOf _).mem_iff.2
    (((windowItems_keeps hplain' hascending'').newest _).2 ⟨?_, fun other hother _ => ?_⟩)
  · exact ⟨before, m, [], quality, rfl, haccepted, hquality, rfl⟩
  · obtain ⟨m', hm', hid⟩ := hother.mem
    rw [hid]
    rw [← hthrough] at hm'
    exact of_decide_eq_true (List.mem_filter.1 hm').2

end ArchiveParser

end CineGate
